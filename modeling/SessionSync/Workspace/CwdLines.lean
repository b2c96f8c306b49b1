import SessionSync.Workspace.CwdRewritten

set_option autoImplicit false

namespace SessionSync.Workspace

open SessionSync.Core Checked Rollout

variable {lex : Lexicon}

theorem escaped_append (left right : Bytes) (first : Escaped left) (second : Escaped right) : Escaped (left ++ right) := by
  induction first with
  | done => exact second
  | plain byte rest quote backslash more ih => exact .plain byte _ quote backslash ih
  | escape byte rest more ih => exact .escape byte _ ih

theorem escaped_plain (text : Bytes) (quote : 34 ∉ text) (backslash : 92 ∉ text) : Escaped text := by
  induction text with
  | nil => exact .done
  | cons byte rest ih =>
      rw [List.mem_cons, not_or] at quote backslash
      exact .plain byte rest (Ne.symm quote.1) (Ne.symm backslash.1) (ih quote.2 backslash.2)

-- What serde_json writes between two quotes can be read back.
theorem escaped_char (c : Char) : Escaped (utf8 (escapeChar c)) := by
  unfold escapeChar
  split
  · exact .escape 34 [] .done
  rename_i quote
  split
  · exact .escape 92 [] .done
  rename_i backslash
  split
  · exact .escape 98 [] .done
  split
  · exact .escape 116 [] .done
  split
  · exact .escape 110 [] .done
  split
  · exact .escape 102 [] .done
  split
  · exact .escape 114 [] .done
  split
  · rename_i control
    have digits : ∀ code < 32, 34 ∉ utf8 ('0' :: '0' :: hexByte (UInt8.ofNat code)) ∧
      92 ∉ utf8 ('0' :: '0' :: hexByte (UInt8.ofNat code)) := by
      decide +kernel
    obtain ⟨noQuote, noBackslash⟩ := digits c.toNat control
    exact .escape 117 _ (escaped_plain _ noQuote noBackslash)
  · have single : utf8 [c] = String.utf8EncodeChar c := by rw [utf8, List.flatMap_singleton]
    rw [single]
    exact escaped_plain _ (fun member => quote (encode_char_ascii 34 (by decide) c member))
      fun member => backslash (encode_char_ascii 92 (by decide) c member)

theorem escaped_text (text : List Char) : Escaped (utf8 (text.flatMap escapeChar)) := by
  induction text with
  | nil => exact .done
  | cons c rest ih =>
      rw [List.flatMap_cons, utf8, List.flatMap_append]
      exact escaped_append _ _ (escaped_char c) ih

theorem values_bare (name : String) (members : Members) :
    valuesOf lex name (bareMembers members) = (valuesOf lex name members).map JsonText.bare := by
  induction members with
  | nil => rfl
  | cons member rest ih =>
      obtain ⟨label, tree⟩ := member
      rw [bareMembers, values_cons, values_cons, List.map_append, ih, Label.name, Label.name]
      by_cases same : (lex.string label.key).getD "" = name
      · rw [if_pos same, if_pos same]
        rfl
      · rw [if_neg same, if_neg same]
        rfl

theorem members_of_bare (tree : JsonText) : membersOf tree.bare = bareMembers (membersOf tree) := by
  cases tree <;> rfl

-- The condition does not depend on the blanks.
theorem unshadowed_bare (targetCwd : String) (tree : JsonText) : Unshadowed lex targetCwd tree ↔
    Unshadowed lex targetCwd tree.bare := by
  have values : ∀ name (value : JsonText), valuesOf lex name (membersOf value.bare) =
    (valuesOf lex name (membersOf value)).map JsonText.bare := by
    intro name value
    rw [members_of_bare, values_bare]
  have last : ∀ values : List JsonText,
      (values.map JsonText.bare).getLast?.map (JsonText.value lex) = values.getLast?.map (JsonText.value lex) := by
    intro values
    rw [List.getLast?_map, Option.map_map]
    congr 1
    exact funext value_bare
  unfold Unshadowed
  dsimp only
  constructor
  · intro plain bareFirst bareKept begins ends
    rw [values, List.head?_map, Option.map_eq_some_iff] at begins
    rw [values, List.getLast?_map, Option.map_eq_some_iff] at ends
    obtain ⟨first, begins, rfl⟩ := begins
    obtain ⟨kept, ends, rfl⟩ := ends
    simp only [values, last, List.length_map, List.map_eq_nil_iff]
    exact plain first kept begins ends
  · intro bare first kept begins ends
    have found :=
      bare first.bare kept.bare (by rw [values, List.head?_map, begins]; rfl) (by rw [values, List.getLast?_map, ends]; rfl)
    simp only [values, last, List.length_map, List.map_eq_nil_iff] at found
    exact found

theorem agrees_one (tokens : ReadsTokens lex) (line : Bytes) (threadId targetCwd : String) (tree : JsonText)
    (reads : Reads lex (jsonOf line) tree) (unshadowed : Unshadowed lex targetCwd tree) : Agrees lex line threadId targetCwd := by
  intro other payload session
  rw [unshadowed_bare, reads_bare tokens (jsonOf line) other tree session.reads reads, ← unshadowed_bare]
  exact unshadowed

namespace CwdSample

-- A reader of the texts that serde_json itself writes, numbers apart.
open Classical in
noncomputable def plainLexicon : Lexicon where
  number _ := none
  string body := if written : ∃ text : String, utf8 (text.toList.flatMap escapeChar) = body then some written.choose else none

theorem plain_tokens : ReadsTokens plainLexicon where
  number token value read := by cases read
  quoted body text read := by
    by_cases written : ∃ text : String, utf8 (text.toList.flatMap escapeChar) = body
    · obtain ⟨other, rfl⟩ := written
      exact escaped_text other.toList
    · have none : plainLexicon.string body = .none := dif_neg written
      rw [none] at read
      cases read
  written text := by
    have written : ∃ other : String, utf8 (other.toList.flatMap escapeChar) = utf8 (text.toList.flatMap escapeChar) := ⟨text, rfl⟩
    have same : utf8 (writeString written.choose) = utf8 (writeString text) := by
      rw [← literal_text, ← literal_text, literal, literal, written.choose_spec]
    have equal := (write_string_cancel written.choose text [] [] (by rw [utf8_injective _ _ same])).1
    exact (dif_pos written).trans (congrArg some equal)

def label (name : String) : Label := ⟨[], utf8 (name.toList.flatMap escapeChar), [], [], []⟩

theorem label_name (name : String) : (label name).name plainLexicon = name := by
  rw [Label.name, label, plain_tokens.written, Option.getD_some]

theorem label_valid (name : String) : (label name).Blank ∧ ∃ text, plainLexicon.string (label name).key = some text :=
  ⟨⟨fun _ none => absurd none List.not_mem_nil, fun _ none => absurd none List.not_mem_nil, fun _ none =>
    absurd none List.not_mem_nil,
    fun _ none => absurd none List.not_mem_nil⟩, name, plain_tokens.written name⟩

def record (payload : Members) : JsonText :=
  .object [(label "type", literal "session_meta"), (label "payload", .object payload [])] []

def plainPayload : Members := [(label "id", literal "t"), (label "cwd", literal "/a")]

def twicePayload : Members := [(label "id", literal "t"), (label "cwd", literal "/a"), (label "cwd", literal "/b")]

theorem record_valid (payload : Members) (valid : ValidMembers plainLexicon 125 payload) :
    (record payload).Valid plainLexicon recursionLimit :=
  ⟨by decide, fun _ none => absurd none List.not_mem_nil, label_valid _, literal_valid plain_tokens _ _, label_valid _,
    ⟨by decide, fun _ none => absurd none List.not_mem_nil, valid⟩, trivial⟩

def plainLine : Bytes := utf8 "\x7b\"type\":\"session_meta\",\"payload\":\x7b\"id\":\"t\",\"cwd\":\"/a\"\x7d\x7d\n".toList

def twiceLine : Bytes :=
  utf8 "\x7b\"type\":\"session_meta\",\"payload\":\x7b\"id\":\"t\",\"cwd\":\"/a\",\"cwd\":\"/b\"\x7d\x7d\n".toList

theorem plain_read : Reads plainLexicon (jsonOf plainLine) (record plainPayload) := by
  refine ⟨record_valid _ ⟨label_valid _, literal_valid plain_tokens _ _, label_valid _, literal_valid plain_tokens _ _, trivial⟩,
    [], [], fun _ none => absurd none List.not_mem_nil, fun _ none => absurd none List.not_mem_nil, ?_⟩
  decide +kernel

theorem twice_read : Reads plainLexicon (jsonOf twiceLine) (record twicePayload) := by
  refine ⟨record_valid _ ⟨label_valid _, literal_valid plain_tokens _ _, label_valid _, literal_valid plain_tokens _ _, label_valid _,
    literal_valid plain_tokens _ _, trivial⟩, [], [], fun _ none => absurd none List.not_mem_nil, fun _ none =>
      absurd none List.not_mem_nil, ?_⟩
  decide +kernel

theorem record_payloads (payload : Members) :
    valuesOf plainLexicon "payload" (membersOf (record payload)) = [.object payload []] := by
  simp [record, membersOf, valuesOf, label_name]

theorem plain_rewritten : RewritesCwd (grammarReader plain_tokens) (grammarStrings plainLexicon) plainLine "t" "/b" := by
  refine (rewrites_cwd_iff plain_tokens (grammar_reads plain_tokens) plainLine "t" "/b").mpr
    (agrees_one plain_tokens plainLine "t" "/b" _ plain_read fun first kept _ ends => ?_)
  rw [record_payloads, List.getLast?_singleton, Option.some.injEq] at ends
  refine Or.inr (Or.inl ⟨by rw [record_payloads]; rfl, ?_⟩)
  rw [← ends]
  simp [membersOf, plainPayload, valuesOf, label_name]

theorem twice_session : ∃ payload, SessionLine plainLexicon twiceLine "t" (record twicePayload) payload := by
  refine ⟨membersValue plainLexicon twicePayload [], twice_read, ?_, ?_, ?_⟩
  · rw [isSessionMeta, get_values]
    simp [record, membersOf, valuesOf, label_name, literal_value plain_tokens, Value.asStr]
  · rw [payloadOf, get_values, record_payloads]
    rfl
  · rw [field_members]
    simp [twicePayload, valuesOf, label_name, literal_value plain_tokens, Value.asStr]

-- The scanner rewrites the first of two cwd keys, and serde_json goes on reading the second.
theorem twice_not_rewritten : ¬ RewritesCwd (grammarReader plain_tokens) (grammarStrings plainLexicon) twiceLine "t" "/c" := by
  intro rewrites
  obtain ⟨payload, session⟩ := twice_session
  have cwds : valuesOf plainLexicon "cwd" (membersOf (.object twicePayload [])) = [literal "/a", literal "/b"] := by
    simp [membersOf, twicePayload, valuesOf, label_name]
  have unshadowed := right_agrees plain_tokens (grammar_reads plain_tokens) twiceLine "t" "/c" rewrites _ payload session
    (.object twicePayload []) (.object twicePayload []) (by rw [record_payloads]; rfl) (by rw [record_payloads]; rfl)
  rw [cwds] at unshadowed
  rcases unshadowed with target | ⟨_, single⟩ | ⟨absent, _⟩
  · rw [List.getLast?_cons_cons, List.getLast?_singleton, Option.map_some, literal_value plain_tokens, Option.some.injEq,
      Value.string.injEq] at target
    exact absurd target (by decide)
  · cases single
  · rw [List.getLast?_cons_cons, List.getLast?_singleton, Option.map_some, literal_value plain_tokens] at absent
    cases absent

end CwdSample

end SessionSync.Workspace
