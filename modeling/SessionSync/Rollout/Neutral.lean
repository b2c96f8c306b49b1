import SessionSync.Rollout.RoundTrip

set_option autoImplicit false

namespace SessionSync.Rollout

open SessionSync.Core Checked Storage Lib

-- A session_meta value with its machine's own fields taken out of the payload.
def withoutMachine (first : Bool) (value : Value) (payload : Fields) : Value :=
  replacePayload value (removeField "model_provider" (if first then removeField "cwd" payload else payload))

-- Lines that may stand for each other: equal, or two records that a machine wrote its
-- own provider and, in the first record, its own path into.
inductive LineAgrees (reader : Reader) (first : Bool) (left right : Bytes) : Prop where
  | equal (same : left = right)
  | records (value other : Value) (payload fields : Fields)
      (leftShort : left.length ≤ maxMetadataLineBytesV4) (rightShort : right.length ≤ maxMetadataLineBytesV4)
      (leftRecord : sessionOf reader left = some (value, payload)) (rightRecord : sessionOf reader right = some (other, fields))
      (ending : (splitLineEnding left).2 = (splitLineEnding right).2)
      (content : withoutMachine first value payload = withoutMachine first other fields)

-- A later record whose normalised form is too long to be parsed, and that form itself.
structure Outgrows (lib : Primitives) (reader : Reader) (left right : Bytes) : Prop where
  short : left.length ≤ maxMetadataLineBytesV4
  record : sessionOf reader left ≠ none
  long : maxMetadataLineBytesV4 < right.length
  normalized : right = stampLine lib reader none providerTokenV4 left

def LaterAgrees (lib : Primitives) (reader : Reader) (left right : Bytes) : Prop :=
  LineAgrees reader false left right ∨ Outgrows lib reader left right ∨ Outgrows lib reader right left

def RolloutsAgree (lib : Primitives) (reader : Reader) (left right : Bytes) : Prop :=
  ∃ head rest other others, splitAfter newline left = head :: rest ∧ splitAfter newline right = other :: others ∧
    LineAgrees reader true head other ∧ List.Forall₂ (LaterAgrees lib reader) rest others

variable {lib : Primitives} {reader : Reader}

theorem replace_iff (left right x y : Fields) (leftSorted : KeysSorted left) (rightSorted : KeysSorted right) :
    replacePayload (.object left) x = replacePayload (.object right) y ↔
      x = y ∧ ∀ name, "payload" ≠ name → fieldOf left name = fieldOf right name := by
  have lookup : ∀ (fields payload : Fields) name, fieldOf (insertField "payload" (.object payload) fields) name =
      if "payload" = name then some (.object payload) else fieldOf fields name := fun fields payload name => field_insert _ _ _ _
  constructor
  · intro same
    have lists : insertField "payload" (.object x) left = insertField "payload" (.object y) right := Value.object.inj same
    refine ⟨?_, fun name other => ?_⟩
    · have atPayload := congrArg (fun fields => fieldOf fields "payload") lists
      simp only [lookup, if_true, Option.some.injEq, Value.object.injEq] at atPayload
      exact atPayload
    · have atName := congrArg (fun fields => fieldOf fields name) lists
      simp only [lookup, if_neg other] at atName
      exact atName
  · rintro ⟨rfl, others⟩
    have lists : insertField "payload" (.object x) left = insertField "payload" (.object x) right := by
      refine fields_ext _ _ (insert_sorted _ _ _ leftSorted) (insert_sorted _ _ _ rightSorted) fun name => ?_
      rw [lookup, lookup]
      split
      · rfl
      · rename_i other
        exact others name other
    rw [replacePayload, replacePayload, lists]

theorem drop_field (first : Bool) (payload : Fields) (name : String) :
    fieldOf (removeField "model_provider" (if first then removeField "cwd" payload else payload)) name =
      if "model_provider" = name then none
      else if first = true ∧ "cwd" = name then none else fieldOf payload name := by
  cases first <;> simp [field_remove]

theorem drop_sorted (first : Bool) (payload : Fields) (sorted : KeysSorted payload) :
    KeysSorted (removeField "model_provider" (if first then removeField "cwd" payload else payload)) := by
  cases first
  · exact remove_sorted _ _ sorted
  · exact remove_sorted _ _ (remove_sorted _ _ sorted)

-- Two payloads get one stamp exactly when they agree in all that it does not write.
theorem stamp_payload_iff (cwd : Option String) (provider : String) (left right : Fields) (leftSorted : KeysSorted left)
    (rightSorted : KeysSorted right) :
    stampPayload cwd provider left = stampPayload cwd provider right ↔
      removeField "model_provider" (if cwd.isSome then removeField "cwd" left else left) =
        removeField "model_provider" (if cwd.isSome then removeField "cwd" right else right) := by
  constructor
  · intro same
    refine fields_ext _ _ (drop_sorted _ _ leftSorted) (drop_sorted _ _ rightSorted) fun name => ?_
    have atName := congrArg (fun fields => fieldOf fields name) same
    simp only [stamp_field] at atName
    rw [drop_field, drop_field]
    cases cwd <;> grind
  · intro same
    refine fields_ext _ _ (stamp_sorted _ _ _ leftSorted) (stamp_sorted _ _ _ rightSorted) fun name => ?_
    have atName := congrArg (fun fields => fieldOf fields name) same
    simp only [drop_field] at atName
    rw [stamp_field, stamp_field]
    cases cwd <;> grind

theorem stamp_iff (cwd : Option String) (provider : String) (value other : Value) (payload fields : Fields)
    (left : IsSession value payload) (right : IsSession other fields) (leftFormed : WellFormed value)
    (rightFormed : WellFormed other) :
    stamp cwd provider value payload = stamp cwd provider other fields ↔
      withoutMachine cwd.isSome value payload = withoutMachine cwd.isSome other fields := by
  have leftInner := (payload_formed value payload left leftFormed).2
  have rightInner := (payload_formed other fields right rightFormed).2
  obtain ⟨one, rfl, _⟩ := session_object value payload left
  obtain ⟨two, rfl, _⟩ := session_object other fields right
  rw [stamp, stamp, withoutMachine, withoutMachine, replace_iff one two _ _ leftFormed.2 rightFormed.2,
    replace_iff one two _ _ leftFormed.2 rightFormed.2, stamp_payload_iff cwd provider payload fields leftInner rightInner]

theorem stamped_lines_iff (floats : PrintsFloats lib) (cwd : Option String) (provider : String) (left right : Bytes)
    (value other : Value) (payload fields : Fields) (leftRecord : sessionOf reader left = some (value, payload))
    (rightRecord : sessionOf reader right = some (other, fields)) :
    stampLine lib reader cwd provider left = stampLine lib reader cwd provider right ↔
      (splitLineEnding left).2 = (splitLineEnding right).2 ∧
        withoutMachine cwd.isSome value payload = withoutMachine cwd.isSome other fields := by
  obtain ⟨leftParsed, leftSession⟩ := (session_of_iff left value payload).mp leftRecord
  obtain ⟨rightParsed, rightSession⟩ := (session_of_iff right other fields).mp rightRecord
  have leftFormed := reader.formed _ value leftParsed
  have rightFormed := reader.formed _ other rightParsed
  rw [← stamp_iff cwd provider value other payload fields leftSession rightSession leftFormed rightFormed]
  constructor
  · intro same
    have parts := congrArg splitLineEnding same
    rw [stamp_line_split lib cwd provider left value payload leftRecord,
      stamp_line_split lib cwd provider right other fields rightRecord, Prod.mk.injEq] at parts
    exact ⟨parts.2, canonical_json_injective floats _ _ (stamped_formed cwd provider value payload leftSession leftFormed)
      (stamped_formed cwd provider other fields rightSession rightFormed) parts.1⟩
  · rintro ⟨ending, same⟩
    rw [stamp_line_some lib cwd provider left value payload leftRecord,
      stamp_line_some lib cwd provider right other fields rightRecord, ending, same]

-- Two records within the limit.
theorem records_agree_iff (floats : PrintsFloats lib) (cwd : Option String) (left right : Bytes) (value other : Value)
    (payload fields : Fields) (leftShort : left.length ≤ maxMetadataLineBytesV4) (rightShort : right.length ≤ maxMetadataLineBytesV4)
    (leftRecord : sessionOf reader left = some (value, payload)) (rightRecord : sessionOf reader right = some (other, fields)) :
    normalizedLine lib reader cwd left = normalizedLine lib reader cwd right ↔ LineAgrees reader cwd.isSome left right := by
  rw [normalized_short cwd left leftShort, normalized_short cwd right rightShort,
    stamped_lines_iff floats cwd providerTokenV4 left right value other payload fields leftRecord rightRecord]
  constructor
  · rintro ⟨ending, content⟩
    exact .records value other payload fields leftShort rightShort leftRecord rightRecord ending content
  · rintro (same | ⟨_, _, _, _, _, _, leftAgain, rightAgain, ending, content⟩)
    · subst same
      rw [leftRecord, Option.some.injEq, Prod.mk.injEq] at rightRecord
      rw [rightRecord.1, rightRecord.2]
      exact ⟨rfl, rfl⟩
    · rw [leftRecord, Option.some.injEq, Prod.mk.injEq] at leftAgain
      rw [rightRecord, Option.some.injEq, Prod.mk.injEq] at rightAgain
      rw [leftAgain.1, leftAgain.2, rightAgain.1, rightAgain.2]
      exact ⟨ending, content⟩

theorem outgrows_normalized (left right : Bytes) (grown : Outgrows lib reader left right) :
    normalizedLine lib reader none left = normalizedLine lib reader none right := by
  rw [normalized_short none left grown.short, normalized_long none right grown.long, grown.normalized]

-- A line that the normaliser copies.
def Copied (reader : Reader) (line : Bytes) : Prop := maxMetadataLineBytesV4 < line.length ∨ sessionOf reader line = none

theorem copied_line (cwd : Option String) (line : Bytes) (copied : Copied reader line) :
    normalizedLine lib reader cwd line = line := by
  rcases copied with long | absent
  · exact normalized_long cwd line long
  · unfold normalizedLine
    rw [stamp_line_none lib cwd providerTokenV4 line absent]
    exact ite_self line

theorem copied_or_record (line : Bytes) :
    Copied reader line ∨ line.length ≤ maxMetadataLineBytesV4 ∧ ∃ value payload, sessionOf reader line = some (value, payload) := by
  by_cases short : line.length ≤ maxMetadataLineBytesV4
  · cases record : sessionOf reader line with
    | none => exact Or.inl (Or.inr record)
    | some pair => exact Or.inr ⟨short, pair.1, pair.2, rfl⟩
  · exact Or.inl (Or.inl (Nat.lt_of_not_le short))

theorem copied_not_record (line : Bytes) (copied : Copied reader line) (short : line.length ≤ maxMetadataLineBytesV4) :
    sessionOf reader line = none := by
  rcases copied with long | absent
  · exact absurd short (Nat.not_le.mpr long)
  · exact absent

theorem copied_agrees_iff (first : Bool) (left right : Bytes) (copied : Copied reader left ∨ Copied reader right) :
    LineAgrees reader first left right ↔ left = right := by
  constructor
  · rintro (same | ⟨_, _, _, _, leftShort, rightShort, leftRecord, rightRecord, _, _⟩)
    · exact same
    · rcases copied with copied | copied
      · rw [copied_not_record left copied leftShort] at leftRecord
        cases leftRecord
      · rw [copied_not_record right copied rightShort] at rightRecord
        cases rightRecord
  · exact .equal

-- A record meets a copied line only by growing past the limit.
theorem record_meets_copy (rereads : RereadsRecords lib reader none providerTokenV4) (left right : Bytes) (value : Value)
    (payload : Fields) (short : left.length ≤ maxMetadataLineBytesV4) (record : sessionOf reader left = some (value, payload))
    (copied : Copied reader right) :
    normalizedLine lib reader none left = normalizedLine lib reader none right ↔ Outgrows lib reader left right := by
  refine ⟨fun same => ?_, outgrows_normalized left right⟩
  rw [normalized_short none left short, copied_line none right copied] at same
  have named : sessionOf reader left ≠ none := by
    rw [record]
    exact Option.some_ne_none _
  have stamped := stamped_rereads lib none providerTokenV4 rereads left named
  rw [same] at stamped
  rcases copied with long | absent
  · exact ⟨short, named, long, same.symm⟩
  · exact absurd absent stamped

theorem later_agrees_iff (floats : PrintsFloats lib) (rereads : RereadsRecords lib reader none providerTokenV4) (left right : Bytes) :
    normalizedLine lib reader none left = normalizedLine lib reader none right ↔ LaterAgrees lib reader left right := by
  constructor
  · intro same
    rcases copied_or_record left with leftCopied | ⟨leftShort, value, payload, leftRecord⟩
    · rcases copied_or_record right with rightCopied | ⟨rightShort, other, fields, rightRecord⟩
      · rw [copied_line none left leftCopied, copied_line none right rightCopied] at same
        exact Or.inl (.equal same)
      · exact Or.inr (Or.inr ((record_meets_copy rereads right left other fields rightShort rightRecord leftCopied).mp same.symm))
    · rcases copied_or_record right with rightCopied | ⟨rightShort, other, fields, rightRecord⟩
      · exact Or.inr (Or.inl ((record_meets_copy rereads left right value payload leftShort leftRecord rightCopied).mp same))
      · exact Or.inl ((records_agree_iff floats none left right value other payload fields leftShort rightShort leftRecord
          rightRecord).mp same)
  · rintro (agrees | grown | grown)
    · cases agrees with
      | equal same => rw [same]
      | records value other payload fields leftShort rightShort leftRecord rightRecord ending content =>
          exact (records_agree_iff floats none left right value other payload fields leftShort rightShort leftRecord
            rightRecord).mpr (.records value other payload fields leftShort rightShort leftRecord rightRecord ending content)
    · exact outgrows_normalized left right grown
    · exact (outgrows_normalized right left grown).symm

theorem first_agrees_iff (floats : PrintsFloats lib) (threadId : String) (left right : Bytes)
    (leftFirst : FirstRecord reader threadId left) (rightFirst : FirstRecord reader threadId right) :
    normalizedLine lib reader (some workspaceTokenV4) left = normalizedLine lib reader (some workspaceTokenV4) right ↔
      LineAgrees reader true left right := by
  obtain ⟨value, payload, leftRecord, _⟩ := leftFirst.session
  obtain ⟨other, fields, rightRecord, _⟩ := rightFirst.session
  exact records_agree_iff floats (some workspaceTokenV4) left right value other payload fields leftFirst.short rightFirst.short
    leftRecord rightRecord

theorem map_eq_iff (f : Bytes → Bytes) (left right : List Bytes) :
    left.map f = right.map f ↔ List.Forall₂ (fun a b => f a = f b) left right := by
  rw [← List.forall₂_eq_eq_eq, List.forall₂_map_left_iff, List.forall₂_map_right_iff]

theorem neutral_iff (floats : PrintsFloats lib) (rereads : RereadsRecords lib reader none providerTokenV4) (threadId : String)
    (left right : Bytes) (one two : NormalizedRolloutV4) (leftRun : normalizeRolloutBytes lib reader threadId left = .ok one)
    (rightRun : normalizeRolloutBytes lib reader threadId right = .ok two) :
    one.normalizedBytes = two.normalizedBytes ↔ RolloutsAgree lib reader left right := by
  obtain ⟨head, rest, leftAccepts, leftOutput⟩ := normalize_bytes_output lib reader threadId left one leftRun
  obtain ⟨other, others, rightAccepts, rightOutput⟩ := normalize_bytes_output lib reader threadId right two rightRun
  have leftPieces : Lines newline (normalizedLine lib reader (some workspaceTokenV4) head :: rest.map
    (normalizedLine lib reader none)) :=
    normalized_pieces floats head rest (leftAccepts.lines ▸ split_lines left)
  have rightPieces : Lines newline (normalizedLine lib reader (some workspaceTokenV4) other :: others.map
    (normalizedLine lib reader none)) :=
    normalized_pieces floats other others (rightAccepts.lines ▸ split_lines right)
  have pieces : one.normalizedBytes = two.normalizedBytes ↔
      normalizedLine lib reader (some workspaceTokenV4) head :: rest.map (normalizedLine lib reader none) =
        normalizedLine lib reader (some workspaceTokenV4) other :: others.map (normalizedLine lib reader none) := by
    rw [leftOutput, rightOutput]
    exact ⟨lines_flatten_inj _ _ leftPieces rightPieces, congrArg List.flatten⟩
  have later : (fun a b => normalizedLine lib reader none a = normalizedLine lib reader none b) = LaterAgrees lib reader := by
    funext a b
    exact propext (later_agrees_iff floats rereads a b)
  rw [pieces, List.cons.injEq, map_eq_iff, later, first_agrees_iff floats threadId head other leftAccepts.first rightAccepts.first]
  constructor
  · rintro ⟨first, rests⟩
    exact ⟨head, rest, other, others, leftAccepts.lines, rightAccepts.lines, first, rests⟩
  · rintro ⟨_, _, _, _, leftLines, rightLines, first, rests⟩
    rw [leftAccepts.lines, List.cons.injEq] at leftLines
    rw [rightAccepts.lines, List.cons.injEq] at rightLines
    rw [leftLines.1, leftLines.2, rightLines.1, rightLines.2]
    exact ⟨first, rests⟩

def machinePayload (cwd provider : String) : Fields :=
  [("cwd", .string cwd), ("id", .string "thread"), ("model_provider", .string provider)]

theorem machine_opens (cwd provider : String) (few : cwd.toList.length + provider.toList.length ≤ 100) :
    Opens (machinePayload cwd provider) := by
  have ordered : (machinePayload cwd provider).Pairwise (fun a b => a.1 < b.1) := by
    simp only [machinePayload, List.pairwise_cons, List.mem_cons, List.not_mem_nil, or_false, forall_eq_or_imp, forall_eq,
      String.reduceLT, and_self, false_imp_iff, implies_true, List.Pairwise.nil]
  refine ⟨⟨⟨trivial, trivial, trivial, trivial⟩, ordered⟩, by simp [machinePayload, field_cons, Value.asStr], ?_⟩
  have path := token_length "cwd" 3 (by decide)
  have key := token_length "id" 2 (by decide)
  have thread := token_length "thread" 6 (by decide)
  have field := token_length "model_provider" 14 (by decide)
  have one := write_string_length cwd
  have two := write_string_length provider
  simp only [machinePayload, widthFields, width]
  omega

theorem machine_dropped (cwd provider : String) :
    withoutMachine true (sampleRecord (machinePayload cwd provider)) (machinePayload cwd provider) =
      sampleRecord [("id", .string "thread")] := by
  have dropped : removeField "model_provider" (removeField "cwd" (machinePayload cwd provider)) = [("id", .string "thread")] := by
    simp [removeField, machinePayload]
  rw [withoutMachine, if_pos rfl, dropped]
  change Value.object (insertField "payload" _ _) = _
  rw [insertField, if_neg (String.lt_irrefl _), if_pos rfl]
  rfl

-- The same conversation from two machines.
theorem two_machines_agree : ∃ one two,
    normalizeRolloutBytes sampleLib sampleReader "thread" (sampleRollout (machinePayload "C:\\work" "openai")) = .ok one ∧
      normalizeRolloutBytes sampleLib sampleReader "thread" (sampleRollout (machinePayload "/Users/me/work" "custom")) = .ok two ∧
      one.normalizedBytes = two.normalizedBytes := by
  have left := machine_opens "C:\\work" "openai" (by decide)
  have right := machine_opens "/Users/me/work" "custom" (by decide)
  obtain ⟨one, leftRun⟩ := sample_normalizes _ left
  obtain ⟨two, rightRun⟩ := sample_normalizes _ right
  refine ⟨one, two, leftRun, rightRun,
    (neutral_iff sample_floats (reparses_rereads sampleLib sampleReader sample_reparses none providerTokenV4) "thread" _ _ one two
      leftRun rightRun).mpr ?_⟩
  have ending : ∀ payload, (splitLineEnding (sampleRollout payload)).2 = [newline] := by
    intro payload
    obtain ⟨body, closed⟩ := sample_closed payload
    rw [sampleRollout, closed, newline, split_closed body [10] (Or.inr (Or.inl rfl))]
  refine ⟨_, [], _, [], sample_lines _ left.formed, sample_lines _ right.formed, ?_, .nil⟩
  exact .records _ _ _ _ (sample_first _ left).short (sample_first _ right).short (record_rollout _ left.formed)
    (record_rollout _ right.formed) (by rw [ending, ending]) (by rw [machine_dropped, machine_dropped])

theorem filler_length (size : Nat) : (utf8 ((List.replicate size 'a').flatMap escapeChar)).length = size := by
  induction size with
  | zero => rfl
  | succ size ih =>
      have plain : escapeChar 'a' = ['a'] := by decide
      have one : (String.utf8EncodeChar 'a').length = 1 := by decide
      simp only [utf8, List.replicate_succ, List.flatMap_cons, plain, List.singleton_append, List.length_append, one] at ih ⊢
      omega

theorem record_length (size : Nat) :
    (recordLine (longPayload size)).length = (recordLine (longPayload 0)).length + size := by
  have large := filler_length size
  have none := filler_length 0
  unfold recordLine
  rw [canonical_json_well_formed sampleLib _ (sample_formed _ (long_formed size)),
    canonical_json_well_formed sampleLib _ (sample_formed _ (long_formed 0))]
  simp only [utf8, sampleRecord, longPayload, writeJson, writeFields, writeString, String.toList_ofList,
    List.flatMap_append, List.flatMap_cons, List.length_append] at large none ⊢
  omega

theorem long_stamped (size : Nat) (provider : String) :
    stampPayload none provider (longPayload size) = longPayload size ++ [("model_provider", .string provider)] := by
  have afterId : ¬ "model_provider" < "id" := by decide
  have afterInstructions : ¬ "model_provider" < "instructions" := by decide
  rw [stampPayload, longPayload, insertField, if_neg afterId, if_neg (by decide), insertField, if_neg afterInstructions,
    if_neg (by decide), insertField]
  rfl

theorem stamped_longer (size : Nat) (provider : String) :
    (recordLine (longPayload size)).length < (recordLine (stampPayload none provider (longPayload size))).length := by
  have formed := sample_formed _ (long_formed size)
  have stampedFormed : WellFormed (sampleRecord (stampPayload none provider (longPayload size))) := by
    rw [← sample_stamp]
    exact stamped_formed none provider _ _ (sample_session _) formed
  unfold recordLine
  rw [canonical_json_well_formed sampleLib _ formed, canonical_json_well_formed sampleLib _ stampedFormed, long_stamped]
  have comma : (String.utf8EncodeChar ',').length = 1 := by decide
  simp only [utf8, sampleRecord, longPayload, writeJson, List.cons_append, List.nil_append, writeFields, List.flatMap_append,
    List.flatMap_cons, List.length_append, comma]
  omega

-- A record that fits the limit exactly, so that its normalised form does not.
def brimSize : Nat := maxMetadataLineBytesV4 - (recordLine (longPayload 0)).length

theorem brim_length : (recordLine (longPayload brimSize)).length = maxMetadataLineBytesV4 := by
  have base := long_length 0
  have limit : maxMetadataLineBytesV4 = 16777216 := by decide
  rw [record_length, brimSize]
  omega

def brimLine : Bytes := recordLine (longPayload brimSize)

def brimNormalized : Bytes := recordLine (stampPayload none providerTokenV4 (longPayload brimSize))

theorem brim_stamped : stampLine sampleLib sampleReader none providerTokenV4 brimLine = brimNormalized := by
  obtain ⟨body, closed⟩ := sample_closed (longPayload brimSize)
  have ending : (splitLineEnding brimLine).2 = [] := by
    have split := split_closed body [] (Or.inr (Or.inr rfl))
    rw [List.append_nil] at split
    rw [brimLine, closed, split]
  rw [stamp_line_some sampleLib none providerTokenV4 brimLine _ _ (record_line _ (long_formed brimSize)), ending,
    List.append_nil, sample_stamp]
  rfl

theorem brim_outgrows : Outgrows sampleLib sampleReader brimLine brimNormalized := by
  have grown := stamped_longer brimSize providerTokenV4
  rw [brim_length] at grown
  refine ⟨Nat.le_of_eq brim_length, ?_, grown, brim_stamped.symm⟩
  rw [brimLine, record_line _ (long_formed brimSize)]
  exact Option.some_ne_none _

theorem brim_unterminated : Unterminated newline brimLine := sample_unterminated _ (long_formed brimSize)

theorem brim_normalized_unterminated : Unterminated newline brimNormalized :=
  brim_stamped ▸ (stamp_line_end sample_floats none providerTokenV4 brimLine).2 brim_unterminated

theorem brim_small : brimNormalized.length ≤ 1000000000 := by
  have limit : maxMetadataLineBytesV4 = 16777216 := by decide
  have size : brimSize ≤ maxMetadataLineBytesV4 := Nat.sub_le _ _
  have few : providerTokenV4.toList.length ≤ 100 := by decide
  have grown := width_stamp sampleLib none providerTokenV4 (longPayload brimSize)
  have narrow := long_width brimSize
  have blank : ((none : Option String).getD "").toList.length = 0 := by decide
  have line := sample_length (stampPayload none providerTokenV4 (longPayload brimSize)) (1000 + 6 * brimSize) (by omega)
  unfold brimNormalized
  omega

-- The agreement of the two files without the lines that outgrow the limit.
def RolloutsAgreeWithin (reader : Reader) (left right : Bytes) : Prop :=
  ∃ head rest other others, splitAfter newline left = head :: rest ∧ splitAfter newline right = other :: others ∧
    LineAgrees reader true head other ∧ List.Forall₂ (LineAgrees reader false) rest others

theorem brim_disagrees : ¬ LineAgrees sampleReader false brimLine brimNormalized := by
  have copied : Copied sampleReader brimNormalized := Or.inl brim_outgrows.long
  rw [copied_agrees_iff false brimLine brimNormalized (Or.inr copied)]
  intro same
  have grown := brim_outgrows.long
  rw [← same] at grown
  exact absurd brim_outgrows.short (Nat.not_le.mpr grown)

def brimLeft : Bytes := sampleRollout shortPayload ++ brimLine

def brimRight : Bytes := sampleRollout shortPayload ++ brimNormalized

theorem outgrown_line_agrees : PrintsFloats sampleLib ∧ Reparses sampleLib sampleReader ∧ ∃ one two,
    normalizeRolloutBytes sampleLib sampleReader "thread" brimLeft = .ok one ∧
      normalizeRolloutBytes sampleLib sampleReader "thread" brimRight = .ok two ∧
      one.normalizedBytes = two.normalizedBytes ∧ ¬ RolloutsAgreeWithin sampleReader brimLeft brimRight := by
  have lineLeft : normalizedLine sampleLib sampleReader none brimLine = brimNormalized := by
    rw [normalized_short none brimLine brim_outgrows.short, brim_stamped]
  have lineRight : normalizedLine sampleLib sampleReader none brimNormalized = brimNormalized :=
    normalized_long none _ brim_outgrows.long
  obtain ⟨one, leftRun, leftOutput⟩ := second_normalizes shortPayload short_opens brimLine brim_unterminated
    (by rw [lineLeft]; exact brim_small)
  obtain ⟨two, rightRun, rightOutput⟩ := second_normalizes shortPayload short_opens brimNormalized brim_normalized_unterminated
    (by rw [lineRight]; exact brim_small)
  refine ⟨sample_floats, sample_reparses, one, two, leftRun, rightRun, ?_, ?_⟩
  · rw [leftOutput, rightOutput, lineLeft, lineRight]
  · rintro ⟨_, _, _, _, leftLines, rightLines, _, rests⟩
    rw [brimLeft, second_lines shortPayload short_opens.formed _ brim_unterminated, List.cons.injEq] at leftLines
    rw [brimRight, second_lines shortPayload short_opens.formed _ brim_normalized_unterminated, List.cons.injEq] at rightLines
    rw [← leftLines.2, ← rightLines.2, List.forall₂_cons] at rests
    exact brim_disagrees rests.1

end SessionSync.Rollout
