import SessionSync.Rollout.CanonicalReader
import SessionSync.Core.Sha256

set_option autoImplicit false

namespace SessionSync.Rollout

open SessionSync.Core Checked Storage Lib

variable (lib : Primitives) (reader : Reader)

-- A later line comes back as it was normalised. The normaliser leaves an oversized
-- line alone, and the materialiser rewrites it all the same.
structure LaterReturns (provider : String) (line : Bytes) : Prop where
  short : line.length ≤ maxMetadataLineBytesV4 → sessionOf reader line ≠ none →
    (stampLine lib reader none provider line).length ≤ maxMetadataLineBytesV4
  long : maxMetadataLineBytesV4 < line.length → stampLine lib reader none provider line = line ∨
    stampLine lib reader none providerTokenV4 line = line ∧
      (stampLine lib reader none provider line).length ≤ maxMetadataLineBytesV4

structure FirstReturns (context : MachineContextV4) (line : Bytes) : Prop where
  normalized : (stampLine lib reader (some workspaceTokenV4) providerTokenV4 line).length ≤ maxMetadataLineBytesV4
  materialized : (stampLine lib reader context.workspacePath context.configuredProvider
    (stampLine lib reader (some workspaceTokenV4) providerTokenV4 line)).length ≤ maxMetadataLineBytesV4

-- No line that a pass rewrites leaves the length that the other still parses.
def LinesReturn (context : MachineContextV4) (input : Bytes) : Prop :=
  ∀ head rest, splitAfter newline input = head :: rest →
    FirstReturns lib reader context head ∧ ∀ line ∈ rest, LaterReturns lib reader context.configuredProvider line

variable {lib reader}

theorem normalized_short (cwd : Option String) (line : Bytes) (short : line.length ≤ maxMetadataLineBytesV4) :
    normalizedLine lib reader cwd line = stampLine lib reader cwd providerTokenV4 line := by
  rw [normalizedLine, if_neg (Nat.not_lt.mpr short)]

theorem normalized_long (cwd : Option String) (line : Bytes) (long : maxMetadataLineBytesV4 < line.length) :
    normalizedLine lib reader cwd line = line := by
  rw [normalizedLine, if_pos long]

theorem normalized_end (floats : PrintsFloats lib) (cwd : Option String) (line : Bytes) :
    EndAlike newline line (normalizedLine lib reader cwd line) := by
  unfold normalizedLine
  split
  · exact ⟨id, id⟩
  · exact stamp_line_end floats cwd providerTokenV4 line

theorem forall_map (f : Bytes → Bytes) (lines : List Bytes) (alike : ∀ line, EndAlike newline line (f line)) :
    List.Forall₂ (EndAlike newline) lines (lines.map f) := by
  induction lines with
  | nil => exact .nil
  | cons line rest ih => exact .cons (alike line) ih

theorem output_lines (first : Bytes → Bytes) (later : Bytes → Bytes) (head : Bytes) (rest : List Bytes)
    (lines : Lines newline (head :: rest)) (firstAlike : EndAlike newline head (first head))
    (alike : ∀ line, EndAlike newline line (later line)) : Lines newline (first head :: rest.map later) :=
  lines_alike (head :: rest) _ (.cons firstAlike (forall_map later rest alike)) lines

-- Two providers that differ print two texts.
theorem provider_shows (floats : PrintsFloats lib) (left right : String) (line : Bytes) (record : sessionOf reader line ≠ none)
    (same : stampLine lib reader none left line = stampLine lib reader none right line) : left = right := by
  cases found : sessionOf reader line with
  | none => exact absurd found record
  | some pair =>
      obtain ⟨value, payload⟩ := pair
      obtain ⟨parsed, session⟩ := (session_of_iff line value payload).mp found
      have formed := reader.formed _ value parsed
      rw [stamp_line_some lib none left line value payload found, stamp_line_some lib none right line value payload found] at same
      have values := canonical_json_injective floats _ _ (stamped_formed none left value payload session formed)
        (stamped_formed none right value payload session formed) (List.append_cancel_right same)
      have payloads := replace_equal value value _ _ payload payload session session values
      have fields := congrArg (fun fields => fieldOf fields "model_provider") payloads
      simp only [stamp_field, if_true, Option.some.injEq, Value.string.injEq] at fields
      exact fields

theorem later_returns_iff (floats : PrintsFloats lib) (reparses : Reparses lib reader) (provider : String)
    (other : provider ≠ providerTokenV4) (line : Bytes) :
    normalizedLine lib reader none (stampLine lib reader none provider (normalizedLine lib reader none line)) =
      normalizedLine lib reader none line ↔ LaterReturns lib reader provider line := by
  have again := fun first second => restamp lib reparses none none first second line id
  by_cases short : line.length ≤ maxMetadataLineBytesV4
  · rw [normalized_short none line short, again]
    refine Iff.trans ?_ (Iff.intro (fun fits => ⟨fun _ => fits, fun long => absurd short (Nat.not_le.mpr long)⟩) fun returns =>
      returns.short short)
    by_cases record : sessionOf reader line = none
    · refine iff_of_true ?_ fun isRecord => absurd record isRecord
      rw [stamp_line_none lib none provider line record, normalized_short none line short]
    · by_cases fits : (stampLine lib reader none provider line).length ≤ maxMetadataLineBytesV4
      · exact iff_of_true (by rw [normalized_short none _ fits, again]) fun _ => fits
      · refine iff_of_false (fun same => other ?_) fun all => fits (all record)
        rw [normalized_long none _ (Nat.lt_of_not_le fits)] at same
        exact provider_shows floats provider providerTokenV4 line record same
  · have long := Nat.lt_of_not_le short
    rw [normalized_long none line long]
    refine Iff.trans ?_ (Iff.intro (fun fits => ⟨fun bound => absurd bound short, fun _ => fits⟩) fun returns => returns.long long)
    by_cases unchanged : stampLine lib reader none provider line = line
    · exact iff_of_true (by rw [unchanged, normalized_long none line long]) (Or.inl unchanged)
    · by_cases fits : (stampLine lib reader none provider line).length ≤ maxMetadataLineBytesV4
      · rw [normalized_short none _ fits, again]
        simp only [unchanged, false_or, fits, and_true]
      · rw [normalized_long none _ (Nat.lt_of_not_le fits)]
        simp only [unchanged, false_or, fits, and_false]

def Named (reader : Reader) (threadId : String) (line : Bytes) : Prop :=
  ∃ value payload, sessionOf reader line = some (value, payload) ∧ (fieldOf payload "id").bind Value.asStr = some threadId

theorem stamped_named (reparses : Reparses lib reader) (threadId : String) (cwd : Option String) (provider : String)
    (line : Bytes) (named : Named reader threadId line) : Named reader threadId (stampLine lib reader cwd provider line) := by
  obtain ⟨value, payload, found, id⟩ := named
  refine ⟨_, _, stamped_record lib reparses cwd provider line value payload found, ?_⟩
  rw [stamp_id, id]

-- What the passes make of an accepted rollout, line by line.
structure Passes (lib : Primitives) (reader : Reader) (threadId : String) (context : MachineContextV4)
    (input normalized materialized head : Bytes) (rest : List Bytes) : Prop where
  accepts : Accepts reader threadId input head rest
  output : normalized = normalizedOutput lib reader head rest
  normalizedLines : splitAfter newline normalized =
    normalizedLine lib reader (some workspaceTokenV4) head :: rest.map (normalizedLine lib reader none)
  run : materializeRolloutBytes lib reader normalized threadId context = .ok materialized
  materializedLines : splitAfter newline materialized =
    stampLine lib reader context.workspacePath context.configuredProvider (normalizedLine lib reader (some workspaceTokenV4) head) ::
      rest.map fun line => stampLine lib reader none context.configuredProvider (normalizedLine lib reader none line)

theorem normalized_pieces (floats : PrintsFloats lib) (head : Bytes) (rest : List Bytes) (lines : Lines newline (head :: rest)) :
    Lines newline (normalizedLine lib reader (some workspaceTokenV4) head :: rest.map (normalizedLine lib reader none)) :=
  output_lines (normalizedLine lib reader (some workspaceTokenV4)) (normalizedLine lib reader none) head rest lines
    (normalized_end floats _ head) (normalized_end floats none)

theorem accepted_passes (floats : PrintsFloats lib) (reparses : Reparses lib reader) (threadId : String) (input : Bytes)
    (normalized : NormalizedRolloutV4) (context : MachineContextV4) (provider : String)
    (run : normalizeRolloutBytes lib reader threadId input = .ok normalized)
    (valid : validateProviderIdV4 context.configuredProvider = .ok provider) :
    ∃ materialized head rest, Passes lib reader threadId context input normalized.normalizedBytes materialized head rest := by
  obtain ⟨head, rest, accepts, output⟩ := normalize_bytes_output lib reader threadId input normalized run
  have normalizedLines : Lines newline (normalizedLine lib reader (some workspaceTokenV4) head ::
      rest.map (normalizedLine lib reader none)) := normalized_pieces floats head rest (accepts.lines ▸ split_lines input)
  have split : splitAfter newline normalized.normalizedBytes =
      normalizedLine lib reader (some workspaceTokenV4) head :: rest.map (normalizedLine lib reader none) :=
    output ▸ split_of_lines _ normalizedLines
  have named : Named reader threadId (normalizedLine lib reader (some workspaceTokenV4) head) := by
    rw [normalized_short _ head accepts.first.short]
    exact stamped_named reparses threadId _ _ head accepts.first.session
  obtain ⟨value, payload, found, id⟩ := named
  have run := materialize_ok lib reader threadId context provider _ _ _ value payload valid split found id
  have materializedLines := output_lines (stampLine lib reader context.workspacePath context.configuredProvider)
    (stampLine lib reader none context.configuredProvider) _ _ normalizedLines (stamp_line_end floats _ _ _)
    (stamp_line_end floats none _)
  refine ⟨_, head, rest, accepts, output, split, run, ?_⟩
  have again := split_of_lines _ materializedLines
  rw [List.map_map] at again
  rw [materializedOutput, List.map_map]
  exact again

theorem normalized_restamps (reparses : Reparses lib reader) (cwd : Option String) (provider : String) (head : Bytes) :
    stampLine lib reader (some workspaceTokenV4) providerTokenV4
        (stampLine lib reader cwd provider (stampLine lib reader (some workspaceTokenV4) providerTokenV4 head)) =
      stampLine lib reader (some workspaceTokenV4) providerTokenV4 head := by
  rw [restamp lib reparses _ _ _ _ _ fun _ => rfl, restamp lib reparses _ _ _ _ _ fun _ => rfl]

theorem normalized_again (reparses : Reparses lib reader) (line : Bytes) :
    normalizedLine lib reader none (normalizedLine lib reader none line) = normalizedLine lib reader none line := by
  by_cases short : line.length ≤ maxMetadataLineBytesV4
  · rw [normalized_short none line short]
    by_cases still : (stampLine lib reader none providerTokenV4 line).length ≤ maxMetadataLineBytesV4
    · rw [normalized_short none _ still, restamp lib reparses _ _ _ _ _ id]
    · rw [normalized_long none _ (Nat.lt_of_not_le still)]
  · have long := Nat.lt_of_not_le short
    rw [normalized_long none line long, normalized_long none line long]

-- Materialised on any machine and normalised again, and normalised twice in place.
def RoundTrips (lib : Primitives) (reader : Reader) (threadId : String) (context : MachineContextV4)
    (normalized : NormalizedRolloutV4) : Prop :=
  (∃ materialized again, materializeRolloutBytes lib reader normalized.normalizedBytes threadId context = .ok materialized ∧
    normalizeRolloutBytes lib reader threadId materialized = .ok again ∧ SameContent again normalized) ∧
  ∃ again, normalizeRolloutBytes lib reader threadId normalized.normalizedBytes = .ok again ∧ SameContent again normalized

theorem same_bytes (left right : NormalizedRolloutV4) (same : SameContent left right) :
    left.normalizedBytes = right.normalizedBytes := by
  rw [same]

theorem head_normalized (threadId : String) (head : Bytes) (record : FirstRecord reader threadId head) :
    normalizedLine lib reader (some workspaceTokenV4) head =
      stampLine lib reader (some workspaceTokenV4) providerTokenV4 head :=
  normalized_short _ head record.short

theorem lines_return_at (context : MachineContextV4) (input head : Bytes) (rest : List Bytes)
    (lines : splitAfter newline input = head :: rest) :
    LinesReturn lib reader context input ↔
      FirstReturns lib reader context head ∧ ∀ line ∈ rest, LaterReturns lib reader context.configuredProvider line := by
  unfold LinesReturn
  rw [lines]
  refine ⟨fun all => all head rest rfl, fun held first later same => ?_⟩
  cases same
  exact held

section
variable {threadId : String} {context : MachineContextV4} {input : Bytes} {normalized : NormalizedRolloutV4}

-- If the result comes back, no line has left the parsed length on the way.
theorem round_trip_needs (floats : PrintsFloats lib) (reparses : Reparses lib reader) (provider : String)
    (run : normalizeRolloutBytes lib reader threadId input = .ok normalized)
    (valid : validateProviderIdV4 context.configuredProvider = .ok provider)
    (trips : RoundTrips lib reader threadId context normalized) : LinesReturn lib reader context input := by
  obtain ⟨materialized, head, rest, passes⟩ := accepted_passes floats reparses threadId input normalized context provider run valid
  obtain ⟨⟨found, again, materialize, renormalize, same⟩, twice, rerun, _⟩ := trips
  rw [passes.run, Except.ok.injEq] at materialize
  rw [← materialize] at renormalize
  obtain ⟨first, others, reaccepts, reoutput⟩ := normalize_bytes_output lib reader threadId _ again renormalize
  obtain ⟨start, _, accepted, _⟩ := normalize_bytes_output lib reader threadId _ twice rerun
  have startIs := accepted.lines.symm.trans passes.normalizedLines
  have firstIs := reaccepts.lines.symm.trans passes.materializedLines
  rw [List.cons.injEq, head_normalized threadId head passes.accepts.first] at startIs firstIs
  rw [lines_return_at context input head rest passes.accepts.lines]
  refine ⟨⟨startIs.1 ▸ accepted.first.short, firstIs.1 ▸ reaccepts.first.short⟩, fun line member => ?_⟩
  have flat : normalizedOutput lib reader first others = normalizedOutput lib reader head rest :=
    reoutput.symm.trans ((same_bytes again normalized same).trans passes.output)
  have pieces := lines_flatten_inj _ _ (normalized_pieces floats first others (reaccepts.lines ▸ split_lines _))
    (normalized_pieces floats head rest (passes.accepts.lines ▸ split_lines _)) flat
  rw [List.cons.injEq, firstIs.2, List.map_map] at pieces
  exact (later_returns_iff floats reparses context.configuredProvider (valid_provider_not_token _ provider valid) line).mp
    (List.map_inj_left.mp pieces.2 line member)

theorem round_trip_suffices (floats : PrintsFloats lib) (reparses : Reparses lib reader) (provider : String)
    (run : normalizeRolloutBytes lib reader threadId input = .ok normalized)
    (valid : validateProviderIdV4 context.configuredProvider = .ok provider)
    (returns : LinesReturn lib reader context input) : RoundTrips lib reader threadId context normalized := by
  obtain ⟨materialized, head, rest, passes⟩ := accepted_passes floats reparses threadId input normalized context provider run valid
  obtain ⟨first, later⟩ := (lines_return_at context input head rest passes.accepts.lines).mp returns
  have headNormalized : normalizedLine lib reader (some workspaceTokenV4) head = _ :=
    head_normalized threadId head passes.accepts.first
  have normalizedNamed := stamped_named reparses threadId (some workspaceTokenV4) providerTokenV4 head passes.accepts.first.session
  have normalizedLines := passes.normalizedLines
  have materializedLines := passes.materializedLines
  rw [headNormalized] at normalizedLines materializedLines
  have record : FirstRecord reader threadId (stampLine lib reader (some workspaceTokenV4) providerTokenV4 head) :=
    ⟨first.normalized, normalizedNamed⟩
  have rerecord : FirstRecord reader threadId (stampLine lib reader context.workspacePath context.configuredProvider
      (stampLine lib reader (some workspaceTokenV4) providerTokenV4 head)) :=
    ⟨first.materialized, stamped_named reparses threadId _ _ _ normalizedNamed⟩
  have restReturns : (rest.map fun line => stampLine lib reader none context.configuredProvider
      (normalizedLine lib reader none line)).map (normalizedLine lib reader none) = rest.map (normalizedLine lib reader none) := by
    rw [List.map_map]
    exact List.map_inj_left.mpr fun line member => (later_returns_iff floats reparses context.configuredProvider
      (valid_provider_not_token _ provider valid) line).mpr (later line member)
  have restAgain : (rest.map (normalizedLine lib reader none)).map (normalizedLine lib reader none) =
      rest.map (normalizedLine lib reader none) := by
    rw [List.map_map]
    exact List.map_inj_left.mpr fun line _ => normalized_again reparses line
  have whole := passes.output
  rw [normalizedOutput, headNormalized] at whole
  refine ⟨⟨materialized, ?_⟩, ?_⟩
  · obtain ⟨again, rerun, same⟩ := normalize_same_output lib reader threadId input materialized _ _ normalized run
      ⟨passes.accepts.named, materializedLines, rerecord⟩
      (by rw [normalizedOutput, head_normalized threadId _ rerecord, normalized_restamps reparses, restReturns, whole])
    exact ⟨again, passes.run, rerun, same⟩
  · exact normalize_same_output lib reader threadId input _ _ _ normalized run
      ⟨passes.accepts.named, normalizedLines, record⟩
      (by rw [normalizedOutput, head_normalized threadId _ record, restamp lib reparses _ _ _ _ _ fun _ => rfl, restAgain, whole])

theorem round_trip_iff (floats : PrintsFloats lib) (reparses : Reparses lib reader) (provider : String)
    (run : normalizeRolloutBytes lib reader threadId input = .ok normalized)
    (valid : validateProviderIdV4 context.configuredProvider = .ok provider) :
    RoundTrips lib reader threadId context normalized ↔ LinesReturn lib reader context input :=
  ⟨round_trip_needs floats reparses provider run valid, round_trip_suffices floats reparses provider run valid⟩

end

noncomputable def sampleReader : Reader := canonicalReader sampleLib

def sampleRecord (payload : Fields) : Value := .object [("payload", .object payload), ("type", .string "session_meta")]

def sampleContext : MachineContextV4 := { configuredProvider := "openai", workspacePath := some "/work" }

def shortPayload : Fields := [("id", .string "thread")]

def longPayload (size : Nat) : Fields :=
  [("id", .string "thread"), ("instructions", .string (String.ofList (List.replicate size 'a')))]

def recordLine (payload : Fields) : Bytes := canonicalJson sampleLib (sampleRecord payload)

def sampleRollout (payload : Fields) : Bytes := recordLine payload ++ [newline]

-- The instructions of the second record alone are as long as the longest line that is parsed.
def longRollout : Bytes := sampleRollout shortPayload ++ recordLine (longPayload maxMetadataLineBytesV4)

-- A payload that may come first in a rollout of the sample thread.
structure Opens (payload : Fields) : Prop where
  formed : WellFormed (.object payload)
  named : (fieldOf payload "id").bind Value.asStr = some "thread"
  narrow : widthFields sampleLib payload ≤ 1000

theorem sample_reparses : Reparses sampleLib sampleReader := canonical_reparses sample_floats

theorem sample_provider : validateProviderIdV4 sampleContext.configuredProvider = .ok "openai" := by
  decide +kernel

theorem sample_session (payload : Fields) : IsSession (sampleRecord payload) payload :=
  ⟨by simp [isSessionMeta, sampleRecord, get, field_cons, Value.asStr], by simp [payloadOf, sampleRecord, get, field_cons, asObject]⟩

theorem sample_formed (payload : Fields) (formed : WellFormed (.object payload)) : WellFormed (sampleRecord payload) :=
  ⟨⟨formed, trivial, trivial⟩, List.pairwise_pair.mpr (by simp only [String.reduceLT])⟩

theorem sample_stamp (payload : Fields) (cwd : Option String) (provider : String) :
    stamp cwd provider (sampleRecord payload) payload = sampleRecord (stampPayload cwd provider payload) := by
  change Value.object (insertField "payload" _ _) = _
  rw [insertField, if_neg (String.lt_irrefl _), if_pos rfl]
  rfl

theorem sample_length (payload : Fields) (bound : Nat) (narrow : widthFields sampleLib payload ≤ bound) :
    (recordLine payload).length ≤ 4 * bound + 1000 := by
  have outer := token_length "payload" 7 (by decide)
  have kind := token_length "type" 4 (by decide)
  have mark := token_length "session_meta" 12 (by decide)
  have text := canonical_json_length sampleLib (sampleRecord payload)
  rw [recordLine]
  simp only [sampleRecord, width, widthFields] at text ⊢
  omega

theorem sample_clean (payload : Fields) (formed : WellFormed (.object payload)) : newline ∉ recordLine payload :=
  canonical_json_no_newline sample_floats _ (sample_formed payload formed)

theorem sample_closed (payload : Fields) : ∃ body, recordLine payload = body ++ [125] :=
  canonical_object_closed sampleLib _

theorem sample_unterminated (payload : Fields) (formed : WellFormed (.object payload)) :
    Unterminated newline (recordLine payload) := by
  obtain ⟨body, closed⟩ := sample_closed payload
  exact ⟨by rw [closed]; simp, sample_clean payload formed⟩

theorem record_line (payload : Fields) (formed : WellFormed (.object payload)) :
    sessionOf sampleReader (recordLine payload) = some (sampleRecord payload, payload) := by
  have found := canonical_record sample_floats _ _ [] (sample_formed _ formed) (sample_session payload) (Or.inr (Or.inr rfl))
  rwa [List.append_nil] at found

theorem record_rollout (payload : Fields) (formed : WellFormed (.object payload)) :
    sessionOf sampleReader (sampleRollout payload) = some (sampleRecord payload, payload) :=
  canonical_record sample_floats _ _ [10] (sample_formed _ formed) (sample_session _) (Or.inr (Or.inl rfl))

theorem sample_lines (payload : Fields) (formed : WellFormed (.object payload)) :
    splitAfter newline (sampleRollout payload) = [sampleRollout payload] := by
  rw [sampleRollout, split_terminated _ _ (sample_clean payload formed), splitAfter]

theorem second_lines (payload : Fields) (formed : WellFormed (.object payload)) (line : Bytes)
    (last : Unterminated newline line) :
    splitAfter newline (sampleRollout payload ++ line) = [sampleRollout payload, line] := by
  rw [sampleRollout, List.append_assoc, List.singleton_append, split_terminated _ _ (sample_clean payload formed),
    split_unterminated line last]

theorem sample_first (payload : Fields) (opens : Opens payload) :
    FirstRecord sampleReader "thread" (sampleRollout payload) := by
  refine ⟨?_, _, _, record_rollout payload opens.formed, opens.named⟩
  have line := sample_length payload 1000 opens.narrow
  rw [sampleRollout, List.length_append, List.length_singleton, maxMetadataLineBytesV4]
  omega

theorem sample_stamped (payload : Fields) (opens : Opens payload) (cwd : Option String) (provider : String)
    (few : (cwd.getD "").toList.length + provider.toList.length ≤ 100) :
    (stampLine sampleLib sampleReader cwd provider (sampleRollout payload)).length ≤ 10000 := by
  obtain ⟨body, closed⟩ := sample_closed payload
  have ending : (splitLineEnding (sampleRollout payload)).2 = [newline] := by
    rw [sampleRollout, closed, newline, split_closed body [10] (Or.inr (Or.inl rfl))]
  have narrow := opens.narrow
  have grown := width_stamp sampleLib cwd provider payload
  have line := sample_length (stampPayload cwd provider payload) 1800 (by omega)
  rw [recordLine] at line
  rw [stamp_line_some sampleLib cwd provider _ _ _ (record_rollout payload opens.formed), ending, sample_stamp,
    List.length_append, List.length_singleton]
  omega

theorem sample_head (payload : Fields) (opens : Opens payload) :
    (normalizedLine sampleLib sampleReader (some workspaceTokenV4) (sampleRollout payload)).length ≤ 10000 := by
  rw [head_normalized "thread" _ (sample_first payload opens)]
  exact sample_stamped payload opens _ _ (by decide)

theorem sample_normalizes (payload : Fields) (opens : Opens payload) :
    ∃ normalized, normalizeRolloutBytes sampleLib sampleReader "thread" (sampleRollout payload) = .ok normalized := by
  have head := sample_head payload opens
  refine normalize_fits sampleLib sampleReader "thread" _ _ []
    ⟨by decide, sample_lines payload opens.formed, sample_first payload opens⟩ ?_
  rw [normalizedOutput, List.map_nil, List.flatten_nil, List.append_nil, maxLogicalContentBytesV4]
  omega

-- A second line that is not too long for the whole is taken as well.
theorem second_normalizes (payload : Fields) (opens : Opens payload) (line : Bytes) (last : Unterminated newline line)
    (small : (normalizedLine sampleLib sampleReader none line).length ≤ 1000000000) :
    ∃ normalized, normalizeRolloutBytes sampleLib sampleReader "thread" (sampleRollout payload ++ line) = .ok normalized ∧
      normalized.normalizedBytes =
        normalizedLine sampleLib sampleReader (some workspaceTokenV4) (sampleRollout payload) ++
          normalizedLine sampleLib sampleReader none line := by
  have head := sample_head payload opens
  have accepts : Accepts sampleReader "thread" (sampleRollout payload ++ line) (sampleRollout payload) [line] :=
    ⟨by decide, second_lines payload opens.formed line last, sample_first payload opens⟩
  obtain ⟨normalized, run⟩ := normalize_fits sampleLib sampleReader "thread" _ _ _ accepts (by
    rw [normalizedOutput, List.map_singleton, List.flatten_singleton, List.length_append, maxLogicalContentBytesV4]
    omega)
  obtain ⟨first, rest, accepted, output⟩ := normalize_bytes_output sampleLib sampleReader "thread" _ normalized run
  have same := accepted.lines.symm.trans accepts.lines
  rw [List.cons.injEq] at same
  refine ⟨normalized, run, ?_⟩
  rw [output, same.1, same.2, normalizedOutput, List.map_singleton, List.flatten_singleton]

theorem short_opens : Opens shortPayload := by
  refine ⟨⟨⟨trivial, trivial⟩, List.pairwise_singleton _ _⟩, by simp [shortPayload, field_cons, Value.asStr], ?_⟩
  have key := token_length "id" 2 (by decide)
  have thread := token_length "thread" 6 (by decide)
  simp only [shortPayload, widthFields, width]
  omega

theorem long_formed (size : Nat) : WellFormed (.object (longPayload size)) :=
  ⟨⟨trivial, trivial, trivial⟩, List.pairwise_pair.mpr (by simp only [String.reduceLT])⟩

theorem long_width (size : Nat) : widthFields sampleLib (longPayload size) ≤ 200 + 6 * size := by
  have key := token_length "id" 2 (by decide)
  have thread := token_length "thread" 6 (by decide)
  have field := token_length "instructions" 12 (by decide)
  have filler := token_length (String.ofList (List.replicate size 'a')) size
    (by rw [String.toList_ofList, List.length_replicate])
  simp only [longPayload, widthFields, width]
  omega

theorem long_length (size : Nat) : (recordLine (longPayload size)).length ≤ 2000 + 24 * size := by
  have line := sample_length _ _ (long_width size)
  omega

theorem long_line (size : Nat) : size < (recordLine (longPayload size)).length := by
  rw [recordLine, canonical_json_well_formed sampleLib _ (sample_formed (longPayload size) (long_formed size))]
  refine Nat.lt_of_lt_of_le ?_ (utf8_longer _)
  have filler := escape_longer (List.replicate size 'a')
  rw [List.length_replicate] at filler
  simp only [sampleRecord, longPayload, writeJson, writeFields, writeString, String.toList_ofList, List.length_append,
    List.length_cons]
  omega

theorem short_returns : LinesReturn sampleLib sampleReader sampleContext (sampleRollout shortPayload) := by
  have limit : maxMetadataLineBytesV4 = 16777216 := by decide
  have normalized := sample_stamped shortPayload short_opens (some workspaceTokenV4) providerTokenV4 (by decide)
  have materialized := sample_stamped shortPayload short_opens (some "/work") "openai" (by decide)
  rw [lines_return_at sampleContext _ _ [] (sample_lines shortPayload short_opens.formed)]
  refine ⟨⟨by omega, ?_⟩, List.forall_mem_nil _⟩
  rw [restamp sampleLib sample_reparses _ _ _ _ _ fun _ => rfl]
  change (stampLine sampleLib sampleReader (some "/work") "openai" (sampleRollout shortPayload)).length ≤ _
  omega

theorem unstamped_changes (reparses : Reparses lib reader) (provider : String) (line : Bytes) (value : Value) (payload : Fields)
    (found : sessionOf reader line = some (value, payload)) (absent : fieldOf payload "model_provider" = none) :
    stampLine lib reader none provider line ≠ line := by
  intro same
  have stamped := stamped_record lib reparses none provider line value payload found
  rw [same, found, Option.some.injEq, Prod.mk.injEq] at stamped
  rw [stamped.2, stamp_field, if_pos rfl] at absent
  cases absent

theorem long_unstamped (size : Nat) : fieldOf (longPayload size) "model_provider" = none := by simp [longPayload, fieldOf]

-- The normaliser leaves the second record alone and the materialiser rewrites it.
theorem long_not_returned : ¬ LinesReturn sampleLib sampleReader sampleContext longRollout := by
  rw [longRollout, lines_return_at sampleContext _ _ _
    (second_lines shortPayload short_opens.formed _ (sample_unterminated _ (long_formed _)))]
  rintro ⟨_, later⟩
  have changes := fun provider => unstamped_changes sample_reparses provider _ _ _
    (record_line _ (long_formed maxMetadataLineBytesV4)) (long_unstamped _)
  rcases (later _ List.mem_cons_self).long (long_line _) with same | same
  · exact changes _ same
  · exact changes _ same.1

theorem long_normalizes :
    ∃ normalized, normalizeRolloutBytes sampleLib sampleReader "thread" longRollout = .ok normalized := by
  have limit : maxMetadataLineBytesV4 = 16777216 := by decide
  have second := long_length maxMetadataLineBytesV4
  obtain ⟨normalized, run, _⟩ := second_normalizes shortPayload short_opens _ (sample_unterminated _ (long_formed _)) (by
    rw [normalized_long none _ (long_line _)]
    omega)
  exact ⟨normalized, run⟩

theorem short_rollout_round_trips : ∃ normalized,
    normalizeRolloutBytes sampleLib sampleReader "thread" (sampleRollout shortPayload) = .ok normalized ∧
      (RoundTrips sampleLib sampleReader "thread" sampleContext normalized ↔
        LinesReturn sampleLib sampleReader sampleContext (sampleRollout shortPayload)) ∧
      LinesReturn sampleLib sampleReader sampleContext (sampleRollout shortPayload) := by
  obtain ⟨normalized, run⟩ := sample_normalizes shortPayload short_opens
  exact ⟨normalized, run, round_trip_iff sample_floats sample_reparses "openai" run sample_provider, short_returns⟩

theorem long_record_rewritten : PrintsFloats sampleLib ∧ Reparses sampleLib sampleReader ∧
    validateProviderIdV4 sampleContext.configuredProvider = .ok "openai" ∧ ∃ normalized,
      normalizeRolloutBytes sampleLib sampleReader "thread" longRollout = .ok normalized ∧
        ¬ RoundTrips sampleLib sampleReader "thread" sampleContext normalized := by
  obtain ⟨normalized, run⟩ := long_normalizes
  exact ⟨sample_floats, sample_reparses, sample_provider, normalized, run, fun trips =>
    long_not_returned (round_trip_needs sample_floats sample_reparses "openai" run sample_provider trips)⟩

end SessionSync.Rollout
