import SessionSync.Rollout.Agreement
import SessionSync.Rollout.CanonicalReader

set_option autoImplicit false

namespace SessionSync.Rollout

open SessionSync.Core Checked Storage Lib

variable {lib : Primitives} {reader : Reader} {utf8Error : Bytes → String}

def recordProvider (value : Value) : Option String :=
  (get value "payload").bind fun payload => (get payload "model_provider").bind Value.asStr

variable (reader) in
def NamesProvider (provider : String) (line : Bytes) : Prop :=
  ∀ value, reader.parse (splitLineEnding line).1 = .ok value → isSessionMeta value = true → recordProvider value = some provider

instance (provider : String) (line : Bytes) : Decidable (NamesProvider reader provider line) :=
  match parsed : reader.parse (splitLineEnding line).1 with
  | .error reason => .isTrue fun value read => by rw [parsed] at read; cases read
  | .ok value => decidable_of_iff (isSessionMeta value = true → recordProvider value = some provider) (by
      simp only [NamesProvider, parsed, Except.ok.injEq, forall_eq'])

variable (reader) in
-- What the selection asks of a rollout: its first record alone.
def namesFirst (provider : String) (bytes : Bytes) : Bool :=
  match readRolloutProvider reader bytes with
  | .ok (some current) => current = provider
  | _ => false

variable (reader) in
def IsRecord (line : Bytes) : Prop := ∃ value, reader.parse (splitLineEnding line).1 = .ok value ∧ isSessionMeta value = true

variable (reader) in
-- Line by line the same, apart from session_meta records.
def SameConversation (before after : Bytes) : Prop :=
  List.Forall₂ (fun old new => new = old ∨ IsRecord reader old ∧ IsRecord reader new) (splitAfter newline before)
    (splitAfter newline after)

theorem names_first_iff (provider : String) (bytes : Bytes) :
    namesFirst reader provider bytes = true ↔ readRolloutProvider reader bytes = .ok (some provider) := by
  unfold namesFirst
  cases readRolloutProvider reader bytes with
  | error reason => simp
  | ok current =>
      cases current with
      | none => simp
      | some name => simp

theorem record_provider_session (value : Value) (payload : Fields) (session : IsSession value payload) :
    recordProvider value = (fieldOf payload "model_provider").bind Value.asStr := by
  obtain ⟨fields, rfl, held⟩ := session_object value payload session
  simp [recordProvider, get, held]

theorem session_record (line : Bytes) (value : Value) (payload : Fields) (found : sessionOf reader line = some (value, payload)) :
    IsRecord reader line := by
  obtain ⟨parsed, session⟩ := (session_of_iff line value payload).mp found
  exact ⟨value, parsed, session.isMeta⟩

-- A line that the stamp leaves alone holds no record, or one that cannot be written.
theorem record_split (line : Bytes) (value : Value) (parsed : reader.parse (splitLineEnding line).1 = .ok value)
    (session : isSessionMeta value = true) (writable : ¬ Unwritable reader line) :
    ∃ payload, sessionOf reader line = some (value, payload) := by
  cases object : payloadOf value with
  | none => exact absurd ⟨value, parsed, session, object⟩ writable
  | some payload => exact ⟨payload, (session_of_iff line value payload).mpr ⟨parsed, session, object⟩⟩

section Written

theorem transform_line_stamp (line : Bytes) (threadId provider : String) (requireThreadIdMatch : Bool) (transformed : Option Bytes)
    (run : transformJsonlLine lib reader line threadId provider requireThreadIdMatch = .ok transformed) :
    transformed.getD line = stampLine lib reader none provider line := by
  cases found : sessionOf reader line with
  | some record =>
      obtain ⟨value, payload⟩ := record
      obtain ⟨parsed, session⟩ := (session_of_iff line value payload).mp found
      rw [stamp_line_some lib none provider line value payload found]
      simp only [transformJsonlLine, parsed, session.isMeta, session.payload, if_true, bind_ok, found_ok, ensure_ok, pure_ok] at run
      obtain ⟨_, same, _, _, rfl⟩ := run
      cases same
      rfl
  | none =>
      rw [stamp_line_none lib none provider line found]
      unfold transformJsonlLine at run
      cases parsed : reader.parse (splitLineEnding line).1 with
      | error reason =>
          simp only [parsed, Except.ok.injEq] at run
          rw [← run]
          rfl
      | ok value =>
          simp only [parsed] at run
          by_cases session : isSessionMeta value = true
          · rw [if_pos session] at run
            simp only [bind_ok, found_ok] at run
            obtain ⟨payload, object, _⟩ := run
            rw [(session_of_iff line value payload).mpr ⟨parsed, session, object⟩] at found
            cases found
          · rw [if_neg session, Except.ok.injEq] at run
            rw [← run]
            rfl

theorem transform_run (threadId provider : String) (lines : List Bytes) (state last : TransformState)
    (run : lines.foldlM (transformStep lib reader threadId provider) state = .ok last) :
    last.output = state.output ++ (lines.map (stampLine lib reader none provider)).flatten := by
  induction lines generalizing state with
  | nil =>
      rw [List.foldlM_nil, pure_ok] at run
      rw [run, List.map_nil, List.flatten_nil, List.append_nil]
  | cons line rest ih =>
      rw [List.foldlM_cons, bind_ok] at run
      obtain ⟨middle, step, run⟩ := run
      simp only [transformStep, bind_ok, ensure_ok, pure_ok] at step
      obtain ⟨transformed, one, _, _, rfl⟩ := step
      rw [ih _ run, List.map_cons, List.flatten_cons, ← List.append_assoc,
        transform_line_stamp line threadId provider _ transformed one]

theorem transform_written (input : Bytes) (threadId provider : String) (output : Bytes) (descriptor : ChunkDescriptorV4)
    (run : transformRolloutFile lib reader input threadId provider = .ok (output, descriptor)) :
    output = providerStream lib reader provider input ∧ ∀ line ∈ splitAfter newline input, ¬ Unwritable reader line := by
  simp only [transformRolloutFile, bind_ok, ensure_ok, pure_ok] at run
  obtain ⟨last, lines, _, _, same⟩ := run
  cases same
  refine ⟨?_, transform_rest_writable lib reader threadId provider _ _ last lines⟩
  rw [transform_run threadId provider _ _ last lines, List.nil_append, providerStream]

end Written

section Stream

theorem provider_stream_lines (floats : PrintsFloats lib) (provider : String) (source : Bytes) :
    splitAfter newline (providerStream lib reader provider source) =
      (splitAfter newline source).map (stampLine lib reader none provider) := by
  apply split_of_lines
  refine lines_alike (splitAfter newline source) _ ?_ (split_lines source)
  rw [List.forall₂_map_right_iff, List.forall₂_same]
  exact fun line _ => stamp_line_end floats none provider line

variable (lib reader) in
-- serde_json reads a printed record as a record that names the provider printed into it.
-- What else is read may differ from what was printed, as a number does that comes back
-- one place off.
def RereadsProvider (provider : String) : Prop :=
  ∀ body value payload, reader.parse body = .ok value → IsSession value payload →
    ∃ again fields, reader.parse (canonicalJson lib (stamp none provider value payload)) = .ok again ∧
      IsSession again fields ∧ fieldOf fields "model_provider" = some (.string provider)

theorem stamped_reread (provider : String) (rereads : RereadsProvider lib reader provider) (line : Bytes) (value : Value)
    (payload : Fields) (found : sessionOf reader line = some (value, payload)) :
    ∃ again fields, sessionOf reader (stampLine lib reader none provider line) = some (again, fields) ∧
      recordProvider again = some provider := by
  obtain ⟨parsed, session⟩ := (session_of_iff line value payload).mp found
  obtain ⟨again, fields, read, still, named⟩ := rereads _ value payload parsed session
  refine ⟨again, fields, (session_of_iff _ again fields).mpr ⟨?_, still⟩, ?_⟩
  · rw [stamp_line_split lib none provider line value payload found]
    exact read
  · rw [record_provider_session again fields still, named]
    rfl

theorem stamped_line_names (provider : String) (rereads : RereadsProvider lib reader provider) (line : Bytes)
    (writable : ¬ Unwritable reader line) : NamesProvider reader provider (stampLine lib reader none provider line) := by
  intro value parsed kind
  cases found : sessionOf reader line with
  | some record =>
      obtain ⟨old, payload⟩ := record
      obtain ⟨again, fields, session, named⟩ := stamped_reread provider rereads line old payload found
      obtain ⟨read, _⟩ := (session_of_iff _ _ _).mp session
      rw [parsed, Except.ok.injEq] at read
      rw [read]
      exact named
  | none =>
      rw [stamp_line_none lib none provider line found] at parsed
      obtain ⟨payload, other⟩ := record_split line value parsed kind writable
      rw [other] at found
      cases found

theorem stream_names (floats : PrintsFloats lib) (provider : String) (rereads : RereadsProvider lib reader provider)
    (source : Bytes) (writable : ∀ line ∈ splitAfter newline source, ¬ Unwritable reader line) :
    ∀ line ∈ splitAfter newline (providerStream lib reader provider source), NamesProvider reader provider line := by
  rw [provider_stream_lines floats]
  intro line member
  obtain ⟨old, held, rfl⟩ := List.mem_map.mp member
  exact stamped_line_names provider rereads old (writable old held)

theorem stream_conversation (floats : PrintsFloats lib) (provider : String) (rereads : RereadsProvider lib reader provider)
    (source : Bytes) : SameConversation reader source (providerStream lib reader provider source) := by
  rw [SameConversation, provider_stream_lines floats, List.forall₂_map_right_iff, List.forall₂_same]
  intro line _
  cases found : sessionOf reader line with
  | none => exact .inl (stamp_line_none lib none provider line found)
  | some record =>
      obtain ⟨value, payload⟩ := record
      obtain ⟨again, fields, session, _⟩ := stamped_reread provider rereads line value payload found
      exact .inr ⟨session_record line value payload found, session_record _ again fields session⟩

theorem conversation_refl (source : Bytes) : SameConversation reader source source :=
  List.forall₂_same.mpr fun _ _ => .inl rfl

theorem stream_first (floats : PrintsFloats lib) (text : ReadsText reader) (provider : String)
    (rereads : RereadsProvider lib reader provider) (source line : Bytes) (rest : List Bytes) (value : Value) (payload : Fields)
    (lines : splitAfter newline source = line :: rest) (found : sessionOf reader line = some (value, payload)) :
    readRolloutProvider reader (providerStream lib reader provider source) = .ok (some provider) := by
  obtain ⟨again, fields, session, named⟩ := stamped_reread provider rereads line value payload found
  obtain ⟨read, stamped⟩ := (session_of_iff _ _ _).mp session
  obtain ⟨whole, ending⟩ := split_ending (stampLine lib reader none provider line)
  rw [← text.trailing _ _ _ ending, whole] at read
  simp only [readRolloutProvider, provider_stream_lines floats, lines, List.map_cons, List.headD_cons, bind_ok,
    map_error_ok, ensure_ok, pure_ok]
  exact ⟨again, read, (), stamped.isMeta, named⟩

end Stream

end SessionSync.Rollout
