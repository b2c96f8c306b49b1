import SessionSync.Core.JsonEquality
import SessionSync.Core.Sha256
import SessionSync.Workspace.CwdLines

set_option autoImplicit false

namespace SessionSync.Rollout

open SessionSync.Core Checked Workspace

mutual
-- How deep the brackets of a value nest.
def depth : Value → Nat
  | .null => 0
  | .bool _ => 0
  | .number _ => 0
  | .string _ => 0
  | .array values => elementsDepth values + 1
  | .object fields => fieldsDepth fields + 1
def elementsDepth : List Value → Nat
  | [] => 0
  | value :: rest => max (depth value) (elementsDepth rest)
def fieldsDepth : Fields → Nat
  | [] => 0
  | (_, value) :: rest => max (depth value) (fieldsDepth rest)
end

theorem elements_depth_le (values : List Value) (room : Nat) : elementsDepth values ≤ room ↔
    ∀ value ∈ values, depth value ≤ room := by
  induction values with
  | nil => simp [elementsDepth]
  | cons value rest ih => rw [elementsDepth, Nat.max_le, ih, List.forall_mem_cons]

theorem fields_depth_le (fields : Fields) (room : Nat) : fieldsDepth fields ≤ room ↔ ∀ field ∈ fields, depth field.2 ≤ room := by
  induction fields with
  | nil => simp [fieldsDepth]
  | cons field rest ih => rw [fieldsDepth, Nat.max_le, ih, List.forall_mem_cons]

def bareMargin : Margin := ⟨[], []⟩

def bareLabel (key : String) : Label := ⟨[], utf8 (key.toList.flatMap escapeChar), [], [], []⟩

section Printed

variable (lib : Primitives)

mutual
-- The layout of what serde_json prints.
def printed : Value → JsonText
  | .null => .word none
  | .bool value => .word (some value)
  | .number value => .number (utf8 (writeNumber lib value))
  | .string text => literal text
  | .array values => .array (printedElements values) []
  | .object fields => .object (printedFields fields) []
def printedElements : List Value → List (Margin × JsonText)
  | [] => []
  | value :: rest => (bareMargin, printed value) :: printedElements rest
def printedFields : Fields → List (Label × JsonText)
  | [] => []
  | (key, value) :: rest => (bareLabel key, printed value) :: printedFields rest
end

variable {lib}

theorem utf8_append (left right : List Char) : utf8 (left ++ right) = utf8 left ++ utf8 right := List.flatMap_append

theorem utf8_cons (c : Char) (rest : List Char) : utf8 (c :: rest) = String.utf8EncodeChar c ++ utf8 rest := List.flatMap_cons

theorem utf8_comma (rest : List Char) : utf8 (',' :: rest) = 44 :: utf8 rest := utf8_cons ',' rest

theorem printed_elements_text (values : List Value) (each : ∀ value ∈ values, (printed lib value).text = utf8 (writeJson lib value)) :
    elementsText (printedElements lib values) = utf8 (elementsTail lib values) := by
  induction values with
  | nil => rfl
  | cons value rest ih =>
      have tail := ih fun other member => each other (List.mem_cons_of_mem _ member)
      have split : elementsTail lib (value :: rest) = ',' :: writeJson lib value ++ elementsTail lib rest := rfl
      rw [printedElements, elementsText, each value List.mem_cons_self, tail, split, utf8_append, utf8_comma]
      simp [bareMargin]

theorem printed_fields_text (fields : Fields) (each : ∀ field ∈ fields, (printed lib field.2).text = utf8 (writeJson lib field.2)) :
    membersText (printedFields lib fields) = utf8 (fieldsTail lib fields) := by
  induction fields with
  | nil => rfl
  | cons field rest ih =>
      obtain ⟨key, value⟩ := field
      have tail := ih fun other member => each other (List.mem_cons_of_mem _ member)
      have split : fieldsTail lib ((key, value) :: rest) = ',' :: (writeString key ++ ':' :: writeJson lib value) ++
        fieldsTail lib rest := rfl
      have quoted : utf8 (writeString key) = 34 :: utf8 (key.toList.flatMap escapeChar) ++ [34] := (literal_text key).symm
      have colon : utf8 (':' :: writeJson lib value) = 58 :: utf8 (writeJson lib value) := utf8_cons ':' _
      rw [printedFields, membersText, each (key, value) List.mem_cons_self, tail, split, utf8_append, utf8_comma, utf8_append,
        quoted, colon]
      simp [bareLabel, Label.text]

theorem printed_text (value : Value) : (printed lib value).text = utf8 (writeJson lib value) := by
  induction value using value_induction with
  | null => rfl
  | bool value => cases value <;> rfl
  | number value => rfl
  | string text => exact literal_text text
  | array values ih =>
      have inner : (elementsText (printedElements lib values)).drop 1 = utf8 (writeElements lib values) := by
        rw [printed_elements_text values ih]
        cases values with
        | nil => rfl
        | cons value rest =>
            rw [write_elements_cons, utf8_append]
            exact congrArg (List.drop 1) ((utf8_append _ _).trans (congrArg (· ++ _) (utf8_comma _)))
      rw [printed, JsonText.text, inner, writeJson, utf8_append]
      exact congrArg (· ++ _) (List.append_nil _)
  | object fields ih =>
      have inner : (membersText (printedFields lib fields)).drop 1 = utf8 (writeFields lib fields) := by
        rw [printed_fields_text fields ih]
        cases fields with
        | nil => rfl
        | cons field rest =>
            rw [write_fields_cons, ← List.cons_append, ← List.append_assoc, utf8_append]
            exact congrArg (List.drop 1) ((utf8_append _ _).trans (congrArg (· ++ _) (utf8_comma _)))
      rw [printed, JsonText.text, inner, writeJson, utf8_append]
      exact congrArg (· ++ _) (List.append_nil _)

theorem printed_bare (value : Value) : (printed lib value).bare = printed lib value := by
  induction value using value_induction with
  | null => rfl
  | bool value => rfl
  | number value => rfl
  | string text => rfl
  | array values ih =>
      rw [printed, JsonText.bare]
      congr 1
      induction values with
      | nil => rfl
      | cons value rest more =>
          rw [printedElements, bareElements, ih value List.mem_cons_self, more fun other member =>
            ih other (List.mem_cons_of_mem _ member)]
          rfl
  | object fields ih =>
      rw [printed, JsonText.bare]
      congr 1
      induction fields with
      | nil => rfl
      | cons field rest more =>
          obtain ⟨key, value⟩ := field
          rw [printedFields, bareMembers, ih (key, value) List.mem_cons_self, more fun other member =>
            ih other (List.mem_cons_of_mem _ member)]
          rfl

end Printed

-- serde_json reads a number back from what it prints.
def ReadsNumbers (lib : Primitives) (lex : Lexicon) : Prop :=
  ∀ value : Number, value.WellFormed → lex.number (utf8 (writeNumber lib value)) = some value

section Parsed

variable {lib : Primitives} {lex : Lexicon} {reader : Reader} {strings : Bytes → Except String String}
variable (tokens : ReadsTokens lex) (numbers : ReadsNumbers lib lex)

theorem insert_last (key : String) (value : Value) (fields : Fields) (above : ∀ field ∈ fields, field.1 < key) :
    insertField key value fields = fields ++ [(key, value)] := by
  induction fields with
  | nil => rfl
  | cons head rest ih =>
      obtain ⟨name, old⟩ := head
      have less := above (name, old) List.mem_cons_self
      rw [insertField, if_neg (String.lt_asymm less), if_neg (Ne.symm (String.ne_of_lt less)),
        ih fun field member => above field (List.mem_cons_of_mem _ member), List.cons_append]

include tokens in
theorem bare_label_name (key : String) : (bareLabel key).name lex = key := by
  rw [Label.name, bareLabel, tokens.written, Option.getD_some]

include tokens in
theorem printed_members_value (fields known : Fields) (sorted : KeysSorted (known ++ fields))
    (each : ∀ field ∈ fields, (printed lib field.2).value lex = field.2) :
    membersValue lex (printedFields lib fields) known = known ++ fields := by
  induction fields generalizing known with
  | nil => rw [printedFields, membersValue, List.append_nil]
  | cons field rest ih =>
      obtain ⟨key, value⟩ := field
      have above : ∀ field ∈ known, field.1 < key := fun field member =>
        (List.pairwise_append.mp sorted).2.2 field member (key, value) List.mem_cons_self
      rw [printedFields, membersValue, bare_label_name tokens, each (key, value) List.mem_cons_self,
        insert_last key value known above, ih (known ++ [(key, value)]) (by simpa using sorted) fun other member =>
          each other (List.mem_cons_of_mem _ member)]
      simp

include tokens numbers in
theorem printed_value (value : Value) (formed : WellFormed value) : (printed lib value).value lex = value := by
  induction value using value_induction with
  | null => rfl
  | bool value => rfl
  | number value =>
      rw [printed, JsonText.value, numbers value formed]
      rfl
  | string text => exact literal_value tokens text
  | array values ih =>
      rw [printed, JsonText.value]
      congr 1
      induction values with
      | nil => rfl
      | cons value rest more =>
          rw [printedElements, elementsValue, ih value List.mem_cons_self formed.1,
            more (fun other member => ih other (List.mem_cons_of_mem _ member)) formed.2]
  | object fields ih =>
      rw [printed, JsonText.value]
      refine congrArg Value.object
        ((printed_members_value tokens fields [] formed.2 fun field member => ?_).trans (List.nil_append _))
      exact ih field member ((well_formed_fields_iff fields).mp formed.1 field member)

theorem no_blank : Blank [] := fun _ none => absurd none List.not_mem_nil

include tokens numbers in
theorem printed_valid (value : Value) (formed : WellFormed value) (room : Nat) :
    (printed lib value).Valid lex room ↔ depth value ≤ room := by
  induction value using value_induction generalizing room with
  | null => simp [printed, JsonText.Valid, depth]
  | bool value => simp [printed, JsonText.Valid, depth]
  | number value => simp [printed, JsonText.Valid, depth, numbers value formed]
  | string text => exact iff_of_true (literal_valid tokens text room) (Nat.zero_le _)
  | array values ih =>
      have each : ∀ inner, ValidElements lex inner (printedElements lib values) ↔ elementsDepth values ≤ inner := by
        intro inner
        induction values with
        | nil => simp [printedElements, ValidElements, elementsDepth]
        | cons value rest more =>
            rw [printedElements, ValidElements, elementsDepth, Nat.max_le, ih value List.mem_cons_self formed.1,
              more (fun other member => ih other (List.mem_cons_of_mem _ member)) formed.2]
            exact and_iff_right ⟨no_blank, no_blank⟩
      rw [printed, JsonText.Valid, each, depth]
      constructor
      · rintro ⟨some, _, fits⟩
        omega
      · intro fits
        exact ⟨by omega, no_blank, by omega⟩
  | object fields ih =>
      obtain ⟨formed, -⟩ := formed
      have each : ∀ inner, ValidMembers lex inner (printedFields lib fields) ↔ fieldsDepth fields ≤ inner := by
        intro inner
        induction fields with
        | nil => simp [printedFields, ValidMembers, fieldsDepth]
        | cons field rest more =>
            obtain ⟨key, value⟩ := field
            rw [printedFields, ValidMembers, fieldsDepth, Nat.max_le, ih (key, value) List.mem_cons_self formed.1,
              more (fun other member => ih other (List.mem_cons_of_mem _ member)) formed.2]
            exact and_iff_right ⟨⟨no_blank, no_blank, no_blank, no_blank⟩, key, tokens.written key⟩
      rw [printed, JsonText.Valid, each, depth]
      constructor
      · rintro ⟨some, _, fits⟩
        omega
      · intro fits
        exact ⟨by omega, no_blank, by omega⟩

mutual
theorem bare_valid (tree : JsonText) (room : Nat) (valid : tree.Valid lex room) : tree.bare.Valid lex room := by
  cases tree with
  | word value => exact valid
  | number token => exact valid
  | string body => exact valid
  | array elements blank => exact ⟨valid.1, no_blank, bare_elements_valid elements _ valid.2.2⟩
  | object members blank => exact ⟨valid.1, no_blank, bare_members_valid members _ valid.2.2⟩
theorem bare_elements_valid (elements : List (Margin × JsonText)) (room : Nat) (valid : ValidElements lex room elements) :
    ValidElements lex room (bareElements elements) := by
  match elements with
  | [] => trivial
  | (margin, tree) :: rest => exact ⟨⟨no_blank, no_blank⟩, bare_valid tree room valid.2.1, bare_elements_valid rest room valid.2.2⟩
theorem bare_members_valid (members : List (Label × JsonText)) (room : Nat) (valid : ValidMembers lex room members) :
    ValidMembers lex room (bareMembers members) := by
  match members with
  | [] => trivial
  | (label, tree) :: rest =>
      exact ⟨⟨⟨no_blank, no_blank, no_blank, no_blank⟩, valid.1.2⟩, bare_valid tree room valid.2.1,
        bare_members_valid rest room valid.2.2⟩
end

include tokens numbers in
-- The text of a value is laid out in one way, so the reader finds that value or gives up.
theorem printed_read (json : ReadsJson lex reader strings) (value : Value) (formed : WellFormed value) :
    reader.parse (canonicalJson lib value) = .ok value ↔ depth value ≤ recursionLimit := by
  have text : canonicalJson lib value = (printed lib value).text := by rw [canonical_json_well_formed lib value formed, printed_text]
  rw [json.value, text, ← printed_valid tokens numbers value formed]
  constructor
  · rintro ⟨tree, ⟨valid, before, after, leading, trailing, laid⟩, _⟩
    have fits := (printed_valid tokens numbers value formed (depth value)).mpr (le_refl _)
    have same := congrArg strip laid
    rw [strip_blank _ _ leading, strip_text tokens tree _ valid, ← List.append_nil (printed lib value).text,
      strip_text tokens (printed lib value) _ fits] at same
    have bare := (text_cancel tokens (printed lib value) tree _ _ fits valid [] after (fun byte none => by cases none)
      (by simpa using ends_blank after [] trailing fun byte none => by cases none) same).1
    rw [← printed_bare, bare]
    exact bare_valid tree recursionLimit valid
  · intro fits
    exact ⟨_, ⟨fits, [], [], no_blank, no_blank, (List.append_nil _).symm⟩, printed_value tokens numbers value formed⟩

theorem sorted_depth (value : Value) (room : Nat) : depth (sortKeys value) ≤ room ↔ depth value ≤ room := by
  induction value using value_induction generalizing room with
  | null => exact Iff.rfl
  | bool value => exact Iff.rfl
  | number value => exact Iff.rfl
  | string text => exact Iff.rfl
  | array values ih =>
      cases room with
      | zero => simp [sortKeys, depth]
      | succ room =>
          rw [sortKeys, depth, depth, Nat.succ_le_succ_iff, Nat.succ_le_succ_iff, elements_depth_le, elements_depth_le,
            sort_elements_map, List.forall_mem_map]
          exact forall₂_congr fun value member => ih value member room
  | object fields ih =>
      cases room with
      | zero => simp [sortKeys, depth]
      | succ room =>
          have moved : ∀ field, field ∈ sortedFields fields ↔ field ∈ sortFields fields :=
            fun field => (sorted_fields_perm fields).mem_iff
          rw [sortKeys, ← sortedFields, depth, depth, Nat.succ_le_succ_iff, Nat.succ_le_succ_iff, fields_depth_le, fields_depth_le]
          simp only [moved]
          rw [sort_fields_map, List.forall_mem_map]
          exact forall₂_congr fun field member => ih field member room

theorem canonical_sorted (value : Value) (mapped : Mapped value) : canonicalJson lib (sortKeys value) = canonicalJson lib value := by
  rw [canonical_json_well_formed lib _ (sort_keys_formed value mapped), canonicalJson]

theorem same_sorted (value read : Value) (mapped : Mapped value) (formed : WellFormed read) :
    SameJson value read ↔ sortKeys value = read := by
  rw [← sorted_iff value read mapped (well_formed_mapped read formed), sort_keys_well_formed read formed]

include tokens numbers in
theorem mapped_read (json : ReadsJson lex reader strings) (value : Value) (mapped : Mapped value) :
    (∃ read, reader.parse (canonicalJson lib value) = .ok read ∧ SameJson value read) ↔ depth value ≤ recursionLimit := by
  rw [← sorted_depth, ← printed_read tokens numbers json (sortKeys value) (sort_keys_formed value mapped),
    canonical_sorted value mapped]
  constructor
  · rintro ⟨read, parsed, same⟩
    rw [parsed, (same_sorted value read mapped (reader.formed _ read parsed)).mp same]
  · intro parsed
    exact ⟨_, parsed, (same_sorted value _ mapped (sort_keys_formed value mapped)).mpr rfl⟩

include tokens numbers in
theorem canonical_json_exact (floats : PrintsFloats lib) (json : ReadsJson lex reader strings) :
    (∀ left right, Mapped left → Mapped right → (canonicalJson lib left = canonicalJson lib right ↔ SameJson left right)) ∧
    (∀ left right, WellFormed left → WellFormed right → (SameJson left right ↔ left = right)) ∧
    (∀ value, Mapped value →
      ((∃ read, reader.parse (canonicalJson lib value) = .ok read ∧ SameJson value read) ↔ depth value ≤ recursionLimit)) ∧
    ∀ value, Mapped value →
      (writeCanonicalJson lib value []).map utf8 = .ok (canonicalJson lib value) ∧
        (writeCanonicalJsonV4 lib value []).map utf8 = .ok (canonicalJson lib value) ∧
        (writeCanonicalJsonV3 lib value []).map utf8 = .ok (canonicalJson lib value) := by
  refine ⟨fun left right leftMapped rightMapped => ?_, same_json_formed, mapped_read tokens numbers json, writers_agree lib⟩
  exact (canonical_json_sorted floats left right (mapped_printable left leftMapped) (mapped_printable right rightMapped)).trans
    (sorted_iff left right leftMapped rightMapped)

end Parsed

namespace CanonicalSample

variable (lib : Primitives)

-- It reads what serde_json itself writes.
open Classical in
noncomputable def printedLexicon : Lexicon where
  number token :=
    if written : ∃ value : Number, value.WellFormed ∧ utf8 (writeNumber lib value) = token then some written.choose else none
  string body := if written : ∃ text : String, utf8 (text.toList.flatMap escapeChar) = body then some written.choose else none

variable {lib}

theorem numeric_byte (c : Char) (numeric : isNumeric c = true) : ∀ byte ∈ String.utf8EncodeChar c, isNumberByte byte = true := by
  simp only [isNumeric, Bool.or_eq_true, decide_eq_true_eq] at numeric
  rcases numeric with (((digit | rfl) | rfl) | rfl) | rfl
  · have low : 48 ≤ c.toNat ∧ c.toNat ≤ 57 := by
      simp only [Char.isDigit, Bool.and_eq_true, decide_eq_true_eq] at digit
      exact ⟨UInt32.le_iff_toNat_le.mp digit.1, UInt32.le_iff_toNat_le.mp digit.2⟩
    have all : ∀ code, 48 ≤ code → code ≤ 57 → ∀ byte ∈ String.utf8EncodeChar (Char.ofNat code), isNumberByte byte = true := by
      intro code least most
      interval_cases code <;> decide +kernel
    rw [← Char.ofNat_toNat c]
    exact all c.toNat low.1 low.2
  · decide +kernel
  · decide +kernel
  · decide +kernel
  · decide +kernel

theorem printed_number (floats : PrintsFloats lib) (value : Number) (formed : value.WellFormed) :
    (printedLexicon lib).number (utf8 (writeNumber lib value)) = some value := by
  have written : ∃ other : Number, other.WellFormed ∧ utf8 (writeNumber lib other) = utf8 (writeNumber lib value) :=
    ⟨value, formed, rfl⟩
  have same :=
    write_number_injective floats written.choose value written.choose_spec.1 formed (utf8_injective _ _ written.choose_spec.2)
  exact (dif_pos written).trans (congrArg some same)

theorem printed_tokens (floats : PrintsFloats lib) : ReadsTokens (printedLexicon lib) where
  number token value read := by
    by_cases written : ∃ value : Number, value.WellFormed ∧ utf8 (writeNumber lib value) = token
    · obtain ⟨other, formed, rfl⟩ := written
      rw [printed_number floats other formed, Option.some.injEq] at read
      subst read
      refine ⟨fun empty => ?_, fun byte member => ?_, formed⟩
      · refine write_number_nonempty floats other formed (utf8_injective _ _ (empty.trans rfl))
      · obtain ⟨c, inside, among⟩ := List.mem_flatMap.mp member
        exact numeric_byte c (List.all_eq_true.mp (write_number_numeric floats other formed) c inside) byte among
    · have none : (printedLexicon lib).number token = .none := dif_neg written
      rw [none] at read
      cases read
  quoted body text read := by
    by_cases written : ∃ text : String, utf8 (text.toList.flatMap escapeChar) = body
    · obtain ⟨other, rfl⟩ := written
      exact escaped_text other.toList
    · have none : (printedLexicon lib).string body = .none := dif_neg written
      rw [none] at read
      cases read
  written text := by
    have written : ∃ other : String, utf8 (other.toList.flatMap escapeChar) = utf8 (text.toList.flatMap escapeChar) := ⟨text, rfl⟩
    have same : utf8 (writeString written.choose) = utf8 (writeString text) := by
      rw [← literal_text, ← literal_text, literal, literal, written.choose_spec]
    have equal := (write_string_cancel written.choose text [] [] (by rw [utf8_injective _ _ same])).1
    exact (dif_pos written).trans (congrArg some equal)

def nested : Nat → Value
  | 0 => .array []
  | levels + 1 => .array [nested levels]

theorem nested_formed (levels : Nat) : WellFormed (nested levels) := by
  induction levels with
  | zero => trivial
  | succ levels ih => exact ⟨ih, trivial⟩

theorem nested_depth (levels : Nat) : depth (nested levels) = levels + 1 := by
  induction levels with
  | zero => rfl
  | succ levels ih => simp [nested, depth, elementsDepth, ih]

-- serde_json prints 128 levels of brackets and does not read them.
theorem deep_unread : WellFormed (nested 127) ∧
    (grammarReader (printed_tokens sample_floats)).parse (canonicalJson sampleLib (nested 127)) ≠ .ok (nested 127) := by
  refine ⟨nested_formed 127, fun read => ?_⟩
  have fits := (printed_read (printed_tokens sample_floats) (printed_number sample_floats)
    (grammar_reads (printed_tokens sample_floats)) (nested 127) (nested_formed 127)).mp read
  rw [nested_depth] at fits
  exact absurd fits (by decide)

def plainValue : Value := .object [("b", .array [.null]), ("a", .string "text")]

def turnedValue : Value := .object [("a", .string "text"), ("b", .array [.null])]

theorem plain_mapped : Mapped plainValue := ⟨⟨⟨trivial, trivial⟩, trivial, trivial⟩, by simp⟩

theorem turned_formed : WellFormed turnedValue :=
  ⟨⟨trivial, ⟨trivial, trivial⟩, trivial⟩, List.pairwise_pair.mpr (by simp only [String.reduceLT])⟩

theorem plain_turned : SameJson plainValue turnedValue := by
  refine ⟨rfl, ⟨.array [.null], rfl, trivial, trivial⟩, ⟨.string "text", rfl, rfl⟩, trivial⟩

theorem plain_laws :
    canonicalJson sampleLib plainValue = canonicalJson sampleLib turnedValue ∧
      (∃ read, (grammarReader (printed_tokens sample_floats)).parse (canonicalJson sampleLib plainValue) = .ok read ∧
        SameJson plainValue read) ∧
      (writeCanonicalJsonV3 sampleLib plainValue []).map utf8 = .ok (canonicalJson sampleLib plainValue) := by
  have laws := canonical_json_exact (printed_tokens sample_floats) (printed_number sample_floats) sample_floats
    (grammar_reads (printed_tokens sample_floats))
  refine ⟨(laws.1 plainValue turnedValue plain_mapped (well_formed_mapped turnedValue turned_formed)).mpr plain_turned, ?_, ?_⟩
  · exact (laws.2.2.1 plainValue plain_mapped).mpr (by decide)
  · exact (laws.2.2.2 plainValue plain_mapped).2.2

end CanonicalSample

end SessionSync.Rollout
