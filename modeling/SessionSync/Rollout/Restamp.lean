import SessionSync.Rollout.Materialize
import SessionSync.Core.JsonLength

set_option autoImplicit false

namespace SessionSync.Rollout

open SessionSync.Core Checked Storage Lib

variable (lib : Primitives) (reader : Reader)

-- serde_json reads back what the canonical writer prints, at the records that the two
-- passes print: a parsed record with strings put into its payload.
def Reparses : Prop :=
  ∀ body value payload cwd provider, reader.parse body = .ok value → IsSession value payload →
    reader.parse (canonicalJson lib (stamp cwd provider value payload)) = .ok (stamp cwd provider value payload)

-- What is left of that where a number may come back one place off: a record printed with
-- these fields is read as a session record again.
def RereadsRecords (cwd : Option String) (provider : String) : Prop :=
  ∀ body value payload, reader.parse body = .ok value → IsSession value payload →
    ∃ again fields, reader.parse (canonicalJson lib (stamp cwd provider value payload)) = .ok again ∧ IsSession again fields

theorem reparses_rereads (reparses : Reparses lib reader) (cwd : Option String) (provider : String) :
    RereadsRecords lib reader cwd provider := by
  intro body value payload parsed session
  exact ⟨_, _, reparses body value payload cwd provider parsed session, stamped_session cwd provider value payload session⟩

-- A stamp makes a payload longer by no more than the two fields it writes.
theorem width_insert (key : String) (value : Value) (fields : Fields) :
    widthFields lib (insertField key value fields) ≤
      widthFields lib fields + (writeString key).length + width lib value + 2 := by
  induction fields with
  | nil =>
      simp only [insertField, widthFields]
      omega
  | cons head rest ih =>
      obtain ⟨name, old⟩ := head
      unfold insertField
      split
      · simp only [widthFields]
        omega
      · split
        · simp only [widthFields]
          omega
        · simp only [widthFields]
          omega

theorem token_length (text : String) (letters : Nat) (size : text.toList.length = letters) :
    (writeString text).length ≤ 6 * letters + 2 :=
  size ▸ write_string_length text

theorem width_stamp (cwd : Option String) (provider : String) (payload : Fields) :
    widthFields lib (stampPayload cwd provider payload) ≤
      widthFields lib payload + 6 * ((cwd.getD "").toList.length + provider.toList.length) + 200 := by
  have key := token_length "cwd" 3 (by decide)
  have field := token_length "model_provider" 14 (by decide)
  have written := write_string_length provider
  cases cwd with
  | none =>
      have one := width_insert lib "model_provider" (.string provider) payload
      simp only [width] at one
      simp only [stampPayload]
      omega
  | some path =>
      have spelled := write_string_length path
      have one := width_insert lib "cwd" (.string path) payload
      have two := width_insert lib "model_provider" (.string provider) (insertField "cwd" (.string path) payload)
      simp only [width] at one two
      simp only [stampPayload, Option.getD_some]
      omega

def Ending (ending : Bytes) : Prop := ending = [13, 10] ∨ ending = [10] ∨ ending = []

theorem split_ending (line : Bytes) : (splitLineEnding line).1 ++ (splitLineEnding line).2 = line ∧
    Ending (splitLineEnding line).2 := by
  unfold splitLineEnding
  split
  · rename_i carriage
    obtain ⟨body, rfl⟩ := List.isSuffixOf_iff_suffix.mp carriage
    refine ⟨?_, Or.inl rfl⟩
    have length : (body ++ [13, 10]).length - 2 = body.length := by simp
    dsimp only
    rw [length, List.take_left' rfl]
  split
  · rename_i bare
    obtain ⟨body, rfl⟩ := List.isSuffixOf_iff_suffix.mp bare
    refine ⟨?_, Or.inr (Or.inl rfl)⟩
    have length : (body ++ [10]).length - 1 = body.length := by simp
    dsimp only
    rw [length, List.take_left' rfl]
  · exact ⟨List.append_nil line, Or.inr (Or.inr rfl)⟩

theorem not_suffix (body ending : Bytes) (last : UInt8) (nonempty : ending ≠ [])
    (differ : ending.getLast? ≠ some last) : ending.isSuffixOf (body ++ [last]) = false := by
  rw [Bool.eq_false_iff]
  intro suffix
  obtain ⟨start, same⟩ := List.isSuffixOf_iff_suffix.mp suffix
  have ends := congrArg List.getLast? same
  rw [List.getLast?_append_of_ne_nil _ nonempty, List.getLast?_append_of_ne_nil _ (List.cons_ne_nil _ _)] at ends
  exact differ ends

-- A text that ends in '}' keeps apart from the ending that follows it.
theorem split_closed (body ending : Bytes) (known : Ending ending) :
    splitLineEnding (body ++ [125] ++ ending) = (body ++ [125], ending) := by
  unfold splitLineEnding
  rcases known with rfl | rfl | rfl
  · have carriage : [13, 10].isSuffixOf (body ++ [125] ++ [13, 10]) = true :=
      List.isSuffixOf_iff_suffix.mpr (List.suffix_append _ _)
    have length : (body ++ [125] ++ [13, 10]).length - 2 = (body ++ [125]).length := by simp
    rw [if_pos carriage, length, List.take_left' rfl]
  · have carriage : [13, 10].isSuffixOf (body ++ [125] ++ [10]) = false := by
      rw [Bool.eq_false_iff]
      intro suffix
      obtain ⟨start, same⟩ := List.isSuffixOf_iff_suffix.mp suffix
      have before : start ++ [13] = body ++ [125] := by
        refine (List.append_left_inj [10]).mp ?_
        simpa using same
      have ends := List.append_inj_right' before rfl
      cases ends
    have bare : [10].isSuffixOf (body ++ [125] ++ [10]) = true := List.isSuffixOf_iff_suffix.mpr (List.suffix_append _ _)
    have length : (body ++ [125] ++ [10]).length - 1 = (body ++ [125]).length := by simp
    rw [if_neg (by rw [carriage]; decide), if_pos bare, length, List.take_left' rfl]
  · rw [List.append_nil, if_neg (by rw [not_suffix body [13, 10] 125 (by decide) (by decide)]; decide),
      if_neg (by rw [not_suffix body [10] 125 (by decide) (by decide)]; decide)]

theorem no_ending (line : Bytes) (none : (splitLineEnding line).2 = []) : ¬ Terminated newline line := by
  rintro ⟨body, rfl, _⟩
  have suffix : [10].isSuffixOf (body ++ [newline]) = true := List.isSuffixOf_iff_suffix.mpr (List.suffix_append _ _)
  unfold splitLineEnding at none
  rw [if_pos suffix] at none
  split at none <;> cases none

theorem unterminated_ending (line : Bytes) (last : Unterminated newline line) : (splitLineEnding line).2 = [] := by
  obtain ⟨whole, known⟩ := split_ending line
  have absent : newline ∉ (splitLineEnding line).2 := by
    intro member
    refine last.2 ?_
    rw [← whole]
    exact List.mem_append_right _ member
  rcases known with same | same | same
  · rw [same] at absent
    exact absurd (by decide) absent
  · rw [same] at absent
    exact absurd (by decide) absent
  · exact same

variable {reader}

theorem session_of_iff (line : Bytes) (value : Value) (payload : Fields) :
    sessionOf reader line = some (value, payload) ↔
      reader.parse (splitLineEnding line).1 = .ok value ∧ IsSession value payload := by
  unfold sessionOf
  cases reader.parse (splitLineEnding line).1 with
  | error reason => simp only [reduceCtorEq, false_and]
  | ok found =>
      dsimp only
      rw [Except.ok.injEq]
      by_cases session : isSessionMeta found = true
      · rw [if_pos session, Option.map_eq_some_iff]
        constructor
        · rintro ⟨inner, object, same⟩
          cases same
          exact ⟨rfl, session, object⟩
        · rintro ⟨rfl, is⟩
          exact ⟨payload, is.payload, rfl⟩
      · rw [if_neg session]
        refine iff_of_false (by simp) ?_
        rintro ⟨rfl, is⟩
        exact session is.isMeta

theorem canonical_object_closed (fields : Fields) : ∃ body, canonicalJson lib (.object fields) = body ++ [125] := by
  refine ⟨utf8 ('{' :: writeFields lib ((sortFields fields).insertionSort fun a b => a.1 ≤ b.1)), ?_⟩
  rw [canonicalJson, sortKeys, writeJson, utf8, utf8, List.flatMap_append]
  rfl

theorem stamped_closed (cwd : Option String) (provider : String) (value : Value) (payload : Fields)
    (session : IsSession value payload) : ∃ body, canonicalJson lib (stamp cwd provider value payload) = body ++ [125] := by
  obtain ⟨fields, rfl, _⟩ := session_object value payload session
  exact canonical_object_closed lib _

theorem stamp_line_some (cwd : Option String) (provider : String) (line : Bytes) (value : Value) (payload : Fields)
    (found : sessionOf reader line = some (value, payload)) :
    stampLine lib reader cwd provider line = canonicalJson lib (stamp cwd provider value payload) ++ (splitLineEnding line).2 := by
  rw [stampLine, found]

theorem stamp_line_none (cwd : Option String) (provider : String) (line : Bytes) (absent : sessionOf reader line = none) :
    stampLine lib reader cwd provider line = line := by
  rw [stampLine, absent]

theorem stamp_line_split (cwd : Option String) (provider : String) (line : Bytes) (value : Value) (payload : Fields)
    (found : sessionOf reader line = some (value, payload)) :
    splitLineEnding (stampLine lib reader cwd provider line) =
      (canonicalJson lib (stamp cwd provider value payload), (splitLineEnding line).2) := by
  obtain ⟨_, session⟩ := (session_of_iff line value payload).mp found
  obtain ⟨body, closed⟩ := stamped_closed lib cwd provider value payload session
  rw [stamp_line_some lib cwd provider line value payload found, closed]
  exact split_closed body _ (split_ending line).2

-- A stamped record is read back as the record that was printed.
theorem stamped_record (reparses : Reparses lib reader) (cwd : Option String) (provider : String) (line : Bytes)
    (value : Value) (payload : Fields) (found : sessionOf reader line = some (value, payload)) :
    sessionOf reader (stampLine lib reader cwd provider line) =
      some (stamp cwd provider value payload, stampPayload cwd provider payload) := by
  obtain ⟨parsed, session⟩ := (session_of_iff line value payload).mp found
  rw [session_of_iff, stamp_line_split lib cwd provider line value payload found]
  exact ⟨reparses _ value payload cwd provider parsed session, stamped_session cwd provider value payload session⟩

theorem stamped_rereads (cwd : Option String) (provider : String) (rereads : RereadsRecords lib reader cwd provider)
    (line : Bytes) (record : sessionOf reader line ≠ none) : sessionOf reader (stampLine lib reader cwd provider line) ≠ none := by
  obtain ⟨⟨value, payload⟩, found⟩ := Option.ne_none_iff_exists'.mp record
  obtain ⟨parsed, session⟩ := (session_of_iff line value payload).mp found
  obtain ⟨again, fields, read, still⟩ := rereads _ value payload parsed session
  have split := stamp_line_split lib cwd provider line value payload found
  refine Option.ne_none_iff_exists'.mpr ⟨(again, fields), (session_of_iff _ again fields).mpr ⟨?_, still⟩⟩
  rw [split]
  exact read

theorem restamp (reparses : Reparses lib reader) (cwd earlier : Option String) (provider old : String) (line : Bytes)
    (covers : earlier.isSome = true → cwd.isSome = true) :
    stampLine lib reader cwd provider (stampLine lib reader earlier old line) = stampLine lib reader cwd provider line := by
  cases found : sessionOf reader line with
  | none => rw [stamp_line_none lib earlier old line found]
  | some record =>
      obtain ⟨value, payload⟩ := record
      obtain ⟨parsed, session⟩ := (session_of_iff line value payload).mp found
      have formed := reader.formed _ value parsed
      rw [stamp_line_some lib cwd provider _ _ _ (stamped_record lib reparses earlier old line value payload found),
        stamp_line_split lib earlier old line value payload found,
        stamp_twice cwd earlier provider old value payload session formed covers,
        stamp_line_some lib cwd provider line value payload found]

variable {lib}

theorem stamp_line_end (floats : PrintsFloats lib) (cwd : Option String) (provider : String) (line : Bytes) :
    EndAlike newline line (stampLine lib reader cwd provider line) := by
  cases found : sessionOf reader line with
  | none =>
      rw [stamp_line_none lib cwd provider line found]
      exact ⟨id, id⟩
  | some record =>
      obtain ⟨value, payload⟩ := record
      obtain ⟨parsed, session⟩ := (session_of_iff line value payload).mp found
      have clean : newline ∉ canonicalJson lib (stamp cwd provider value payload) :=
        canonical_json_no_newline floats _ (stamped_formed cwd provider value payload session (reader.formed _ value parsed))
      rw [stamp_line_some lib cwd provider line value payload found]
      refine ⟨fun ended => ?_, fun last => ?_⟩
      · rcases (split_ending line).2 with ending | ending | ending
        · refine ⟨canonicalJson lib (stamp cwd provider value payload) ++ [13], by rw [ending, List.append_assoc]; rfl, ?_⟩
          rw [List.mem_append, not_or]
          exact ⟨clean, by decide⟩
        · exact ⟨canonicalJson lib (stamp cwd provider value payload), by rw [ending]; rfl, clean⟩
        · exact absurd ended (no_ending line ending)
      · obtain ⟨body, closed⟩ := stamped_closed lib cwd provider value payload session
        rw [unterminated_ending line last, List.append_nil]
        exact ⟨by rw [closed]; simp, clean⟩

end SessionSync.Rollout
