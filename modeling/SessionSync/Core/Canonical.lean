import SessionSync.Core.Json

set_option autoImplicit false

namespace SessionSync.Core

variable (lib : Primitives)

def isFinite (bits : UInt64) : Bool := (bits >>> 52) &&& 0x7ff ≠ 0x7ff

def isNumeric (c : Char) : Bool := c.isDigit || c = '-' || c = '+' || c = '.' || c = 'e'

-- What serde_json promises of the text of a finite f64: it reads back to the same
-- bits, it is made of number characters, and it always has a fraction or an exponent.
structure PrintsFloats : Prop where
  distinct : ∀ left right, isFinite left = true → isFinite right = true →
    lib.floatText left = lib.floatText right → left = right
  numeric : ∀ bits, isFinite bits = true → (lib.floatText bits).toList.all isNumeric = true
  fractional : ∀ bits, isFinite bits = true → ∃ c ∈ (lib.floatText bits).toList, c = '.' ∨ c = 'e'

def Number.WellFormed : Number → Prop
  | .posInt _ => True
  | .negInt value => value.toInt < 0
  | .float bits => isFinite bits = true

mutual
-- The values a serde_json::Value can hold: a map keeps its keys in strict order, a
-- negative integer is below zero and a float is finite.
def WellFormed : Value → Prop
  | .null => True
  | .bool _ => True
  | .number value => value.WellFormed
  | .string _ => True
  | .array values => WellFormedElements values
  | .object fields => WellFormedFields fields ∧ fields.Pairwise (fun a b => a.1 < b.1)
def WellFormedElements : List Value → Prop
  | [] => True
  | value :: rest => WellFormed value ∧ WellFormedElements rest
def WellFormedFields : List (String × Value) → Prop
  | [] => True
  | (_, value) :: rest => WellFormed value ∧ WellFormedFields rest
end

mutual
theorem sort_keys_well_formed (value : Value) (formed : WellFormed value) : sortKeys value = value := by
  cases value with
  | null => rfl
  | bool value => rfl
  | number value => rfl
  | string text => rfl
  | array values => simp only [sortKeys, sort_elements_well_formed values formed]
  | object fields =>
      have sorted : fields.Pairwise (fun a b => a.1 ≤ b.1) := formed.2.imp fun less => String.not_lt.mp (String.lt_asymm less)
      simp only [sortKeys, sort_fields_well_formed fields formed.1, sorted.insertionSort_eq]
theorem sort_elements_well_formed (values : List Value) (formed : WellFormedElements values) :
    sortElements values = values := by
  cases values with
  | nil => rfl
  | cons value rest =>
      simp only [sortElements, sort_keys_well_formed value formed.1, sort_elements_well_formed rest formed.2]
theorem sort_fields_well_formed (fields : List (String × Value)) (formed : WellFormedFields fields) :
    sortFields fields = fields := by
  match fields with
  | [] => rfl
  | (key, value) :: rest =>
      simp only [sortFields, sort_keys_well_formed value formed.1, sort_fields_well_formed rest formed.2]
end

mutual
-- What the printed text tells apart: numbers only need to be ones that print.
def Printable : Value → Prop
  | .null => True
  | .bool _ => True
  | .number value => value.WellFormed
  | .string _ => True
  | .array values => PrintableElements values
  | .object fields => PrintableFields fields
def PrintableElements : List Value → Prop
  | [] => True
  | value :: rest => Printable value ∧ PrintableElements rest
def PrintableFields : List (String × Value) → Prop
  | [] => True
  | (_, value) :: rest => Printable value ∧ PrintableFields rest
end

theorem printable_elements (values : List Value) : PrintableElements values ↔ ∀ value ∈ values, Printable value := by
  induction values with
  | nil => simp [PrintableElements]
  | cons value rest ih => simp [PrintableElements, ih]

theorem printable_fields (fields : List (String × Value)) : PrintableFields fields ↔ ∀ field ∈ fields, Printable field.2 := by
  induction fields with
  | nil => simp [PrintableFields]
  | cons field rest ih => simp [PrintableFields, ih]

mutual
theorem well_formed_printable (value : Value) (formed : WellFormed value) : Printable value := by
  cases value with
  | null => trivial
  | bool value => trivial
  | number value => exact formed
  | string text => trivial
  | array values => exact well_formed_elements values formed
  | object fields => exact well_formed_fields fields formed.1
theorem well_formed_elements (values : List Value) (formed : WellFormedElements values) : PrintableElements values := by
  cases values with
  | nil => trivial
  | cons value rest => exact ⟨well_formed_printable value formed.1, well_formed_elements rest formed.2⟩
theorem well_formed_fields (fields : List (String × Value)) (formed : WellFormedFields fields) : PrintableFields fields := by
  match fields with
  | [] => trivial
  | (key, value) :: rest => exact ⟨well_formed_printable value formed.1, well_formed_fields rest formed.2⟩
end

mutual
theorem sort_keys_printable (value : Value) (formed : Printable value) : Printable (sortKeys value) := by
  cases value with
  | null => trivial
  | bool value => trivial
  | number value => exact formed
  | string text => trivial
  | array values => exact sort_elements_printable values formed
  | object fields =>
      have parts := (printable_fields _).mp (sort_fields_printable fields formed)
      exact (printable_fields _).mpr fun field member => parts field ((List.mem_insertionSort _).mp member)
theorem sort_elements_printable (values : List Value) (formed : PrintableElements values) :
    PrintableElements (sortElements values) := by
  cases values with
  | nil => trivial
  | cons value rest => exact ⟨sort_keys_printable value formed.1, sort_elements_printable rest formed.2⟩
theorem sort_fields_printable (fields : List (String × Value)) (formed : PrintableFields fields) :
    PrintableFields (sortFields fields) := by
  match fields with
  | [] => trivial
  | (key, value) :: rest => exact ⟨sort_keys_printable value formed.1, sort_fields_printable rest formed.2⟩
end

theorem canonical_json_well_formed (value : Value) (formed : WellFormed value) :
    canonicalJson lib value = utf8 (writeJson lib value) := by
  rw [canonicalJson, sort_keys_well_formed value formed]

-- The writer puts its separator before every element but the first.
def elementsTail (values : List Value) : List Char := values.flatMap fun value => ',' :: writeJson lib value

def fieldsTail (fields : List (String × Value)) : List Char :=
  fields.flatMap fun field => ',' :: (writeString field.1 ++ ':' :: writeJson lib field.2)

theorem write_elements_cons (value : Value) (rest : List Value) :
    writeElements lib (value :: rest) = writeJson lib value ++ elementsTail lib rest := by
  induction rest generalizing value with
  | nil => simp [writeElements, elementsTail]
  | cons next rest ih =>
      rw [writeElements, ih next]
      simp [elementsTail]

theorem write_fields_cons (key : String) (value : Value) (rest : List (String × Value)) :
    writeFields lib ((key, value) :: rest) =
      writeString key ++ ':' :: (writeJson lib value ++ fieldsTail lib rest) := by
  induction rest generalizing key value with
  | nil => simp [writeFields, fieldsTail]
  | cons next rest ih =>
      rw [writeFields, ih next.1 next.2]
      simp [fieldsTail]

def hexValue (c : Char) : Nat := if c.isDigit then c.toNat - 48 else c.toNat - 87

-- Reads one character back from its escaped form.
def readEscape : List Char → Option (Char × List Char)
  | '\\' :: 'b' :: rest => some (Char.ofNat 8, rest)
  | '\\' :: 't' :: rest => some (Char.ofNat 9, rest)
  | '\\' :: 'n' :: rest => some (Char.ofNat 10, rest)
  | '\\' :: 'f' :: rest => some (Char.ofNat 12, rest)
  | '\\' :: 'r' :: rest => some (Char.ofNat 13, rest)
  | '\\' :: 'u' :: _ :: _ :: high :: low :: rest => some (Char.ofNat (16 * hexValue high + hexValue low), rest)
  | '\\' :: c :: rest => some (c, rest)
  | c :: rest => some (c, rest)
  | [] => none

theorem read_escape_plain (c : Char) (rest : List Char) (plain : c ≠ '\\') : readEscape (c :: rest) = some (c, rest) := by
  unfold readEscape
  split <;> simp_all

theorem char_of_to_nat (c : Char) (code : Nat) (same : c.toNat = code) : c = Char.ofNat code := by
  rw [← same, Char.ofNat_toNat]

theorem read_escape_control (code : Nat) (control : code < 32) (rest : List Char) :
    readEscape ('\\' :: 'u' :: '0' :: '0' :: (hexByte (UInt8.ofNat code) ++ rest)) = some (Char.ofNat code, rest) := by
  interval_cases code <;> rfl

theorem read_escape_char (c : Char) (rest : List Char) : readEscape (escapeChar c ++ rest) = some (c, rest) := by
  unfold escapeChar
  split
  · rename_i quote
    rw [quote]
    rfl
  split
  · rename_i slash
    rw [slash]
    rfl
  rename_i plain
  split
  · rename_i code
    rw [char_of_to_nat c 8 code]
    rfl
  split
  · rename_i code
    rw [char_of_to_nat c 9 code]
    rfl
  split
  · rename_i code
    rw [char_of_to_nat c 10 code]
    rfl
  split
  · rename_i code
    rw [char_of_to_nat c 12 code]
    rfl
  split
  · rename_i code
    rw [char_of_to_nat c 13 code]
    rfl
  split
  · rename_i control
    have read := read_escape_control c.toNat control rest
    rwa [Char.ofNat_toNat] at read
  · exact read_escape_plain c rest plain

theorem escape_char_cancel (left right : Char) (a b : List Char) (same : escapeChar left ++ a = escapeChar right ++ b) :
    left = right ∧ a = b := by
  have read := read_escape_char left a
  rw [same, read_escape_char right b] at read
  simp only [Option.some.injEq, Prod.mk.injEq] at read
  exact ⟨read.1.symm, read.2.symm⟩

theorem escape_char_head (c : Char) : ∃ head rest, escapeChar c = head :: rest ∧ head ≠ '"' ∧ head ≠ '\n' := by
  unfold escapeChar
  split
  · exact ⟨_, _, rfl, by decide, by decide⟩
  rename_i quote
  iterate 6
    split
    · exact ⟨_, _, rfl, by decide, by decide⟩
  split
  · exact ⟨_, _, rfl, by decide, by decide⟩
  · rename_i newline _ _ _
    refine ⟨c, [], rfl, quote, fun same => newline ?_⟩
    rw [same]
    rfl

theorem escape_text_cancel (left right : List Char) (a b : List Char)
    (same : left.flatMap escapeChar ++ '"' :: a = right.flatMap escapeChar ++ '"' :: b) : left = right ∧ a = b := by
  induction left generalizing right with
  | nil =>
      cases right with
      | nil => simpa using same
      | cons c right =>
          obtain ⟨head, rest, shape, noQuote, _⟩ := escape_char_head c
          simp only [List.flatMap_nil, List.nil_append, List.flatMap_cons, shape, List.cons_append,
            List.cons.injEq] at same
          exact absurd same.1.symm noQuote
  | cons c left ih =>
      cases right with
      | nil =>
          obtain ⟨head, rest, shape, noQuote, _⟩ := escape_char_head c
          simp only [List.flatMap_nil, List.nil_append, List.flatMap_cons, shape, List.cons_append,
            List.cons.injEq] at same
          exact absurd same.1 noQuote
      | cons d right =>
          simp only [List.flatMap_cons, List.append_assoc] at same
          obtain ⟨head, tail⟩ := escape_char_cancel c d _ _ same
          obtain ⟨others, after⟩ := ih right tail
          exact ⟨by rw [head, others], after⟩

theorem write_string_cancel (left right : String) (a b : List Char)
    (same : writeString left ++ a = writeString right ++ b) : left = right ∧ a = b := by
  simp only [writeString, List.cons_append, List.append_assoc, List.cons.injEq, true_and] at same
  obtain ⟨text, after⟩ := escape_text_cancel _ _ a b same
  exact ⟨String.toList_inj.mp text, after⟩

-- A text that a number cannot run on into.
def Stops (rest : List Char) : Prop := ∀ c, rest.head? = some c → isNumeric c = false

theorem stops_cons (c : Char) (rest : List Char) (stop : isNumeric c = false) : Stops (c :: rest) := by
  intro head first
  cases first
  exact stop

theorem numeric_cancel (left right a b : List Char) (leftNumeric : left.all isNumeric = true)
    (rightNumeric : right.all isNumeric = true) (stopA : Stops a) (stopB : Stops b)
    (same : left ++ a = right ++ b) : left = right ∧ a = b := by
  induction left generalizing right with
  | nil =>
      cases right with
      | nil => exact ⟨rfl, same⟩
      | cons c right =>
          simp only [List.all_cons, Bool.and_eq_true] at rightNumeric
          have stop := stopA c (by rw [← List.nil_append a, same]; rfl)
          simp [stop] at rightNumeric
  | cons c left ih =>
      simp only [List.all_cons, Bool.and_eq_true] at leftNumeric
      cases right with
      | nil =>
          have stop := stopB c (by rw [← List.nil_append b, ← same]; rfl)
          simp [stop] at leftNumeric
      | cons d right =>
          simp only [List.all_cons, Bool.and_eq_true] at rightNumeric
          simp only [List.cons_append, List.cons.injEq] at same
          obtain ⟨others, after⟩ := ih right leftNumeric.2 rightNumeric.2 same.2
          exact ⟨by rw [same.1, others], after⟩

theorem digit_numeric (value : Nat) (c : Char) (member : c ∈ Nat.toDigits 10 value) : c.isDigit = true :=
  Nat.isDigit_of_mem_toDigits (by decide) (by decide) member

theorem to_digits_injective (left right : Nat) (same : Nat.toDigits 10 left = Nat.toDigits 10 right) : left = right := by
  have read := congrArg (fun text => Nat.ofDigitChars 10 text 0) same
  simpa only [Nat.ofDigitChars_ten_toDigits] using read

variable {lib}

theorem write_number_numeric (floats : PrintsFloats lib) (value : Number) (formed : value.WellFormed) :
    (writeNumber lib value).all isNumeric = true := by
  cases value with
  | posInt value =>
      rw [writeNumber, List.all_eq_true]
      intro c member
      simp [isNumeric, digit_numeric _ c member]
  | negInt value =>
      rw [writeNumber, List.all_cons, Bool.and_eq_true, List.all_eq_true]
      refine ⟨by decide, fun c member => ?_⟩
      simp [isNumeric, digit_numeric _ c member]
  | float bits => exact floats.numeric bits formed

theorem digits_not_fractional (value : Nat) (c : Char) (fraction : c = '.' ∨ c = 'e') : c ∉ Nat.toDigits 10 value := by
  intro member
  have digit := digit_numeric value c member
  rcases fraction with rfl | rfl <;> exact absurd digit (by decide)

theorem integer_not_float (floats : PrintsFloats lib) (value : Nat) (bits : UInt64) (finite : isFinite bits = true) :
    Nat.toDigits 10 value ≠ (lib.floatText bits).toList ∧ '-' :: Nat.toDigits 10 value ≠ (lib.floatText bits).toList := by
  obtain ⟨c, member, fraction⟩ := floats.fractional bits finite
  have absent := digits_not_fractional value c fraction
  refine ⟨fun same => absent (same ▸ member), fun same => ?_⟩
  rw [← same, List.mem_cons] at member
  rcases member with sign | member
  · rcases fraction with rfl | rfl <;> cases sign
  · exact absent member

theorem sign_not_digits (left right : Nat) : '-' :: Nat.toDigits 10 left ≠ Nat.toDigits 10 right := by
  intro same
  have digit := digit_numeric right '-' (by rw [← same]; exact List.mem_cons_self)
  exact absurd digit (by decide)

theorem write_number_injective (floats : PrintsFloats lib) (left right : Number) (leftFormed : left.WellFormed)
    (rightFormed : right.WellFormed) (same : writeNumber lib left = writeNumber lib right) : left = right := by
  cases left with
  | posInt left =>
      cases right with
      | posInt right => rw [UInt64.toNat_inj.mp (to_digits_injective _ _ same)]
      | negInt right => exact absurd same.symm (sign_not_digits _ _)
      | float bits => exact absurd same (integer_not_float floats _ bits rightFormed).1
  | negInt left =>
      cases right with
      | posInt right => exact absurd same (sign_not_digits _ _)
      | negInt right =>
          have size := to_digits_injective _ _ (List.cons.inj same).2
          have below : left.toInt < 0 := leftFormed
          have other : right.toInt < 0 := rightFormed
          have equal : left = right := Int64.toInt_inj.mp (by omega)
          rw [equal]
      | float bits => exact absurd same (integer_not_float floats _ bits rightFormed).2
  | float bits =>
      cases right with
      | posInt right => exact absurd same.symm (integer_not_float floats _ bits leftFormed).1
      | negInt right => exact absurd same.symm (integer_not_float floats _ bits leftFormed).2
      | float other => rw [floats.distinct bits other leftFormed rightFormed (String.toList_inj.mp same)]

theorem write_number_cancel (floats : PrintsFloats lib) (left right : Number) (leftFormed : left.WellFormed)
    (rightFormed : right.WellFormed) (a b : List Char) (stopA : Stops a) (stopB : Stops b)
    (same : writeNumber lib left ++ a = writeNumber lib right ++ b) : left = right ∧ a = b := by
  have numeric := write_number_numeric floats
  obtain ⟨text, after⟩ := numeric_cancel _ _ a b (numeric left leftFormed) (numeric right rightFormed) stopA stopB same
  exact ⟨write_number_injective floats left right leftFormed rightFormed text, after⟩

def kind : Value → Nat
  | .null => 0
  | .bool _ => 1
  | .number _ => 2
  | .string _ => 3
  | .array _ => 4
  | .object _ => 5

-- The first character of a printed value tells its kind.
def leadKind (c : Char) : Nat :=
  if isNumeric c then 2
  else if c = 'n' then 0
  else if c = 't' ∨ c = 'f' then 1
  else if c = '"' then 3
  else if c = '[' then 4
  else if c = '{' then 5
  else 6

theorem write_number_nonempty (floats : PrintsFloats lib) (value : Number) (formed : value.WellFormed) :
    writeNumber lib value ≠ [] := by
  cases value with
  | posInt value => exact Nat.toDigits_ne_nil
  | negInt value => exact List.cons_ne_nil _ _
  | float bits =>
      obtain ⟨c, member, _⟩ := floats.fractional bits formed
      exact List.ne_nil_of_mem member

theorem write_json_lead (floats : PrintsFloats lib) (value : Value) (formed : Printable value) :
    ∃ c rest, writeJson lib value = c :: rest ∧ leadKind c = kind value := by
  cases value with
  | null => exact ⟨_, _, rfl, by decide⟩
  | bool value => cases value <;> exact ⟨_, _, rfl, by decide⟩
  | number value =>
      have numeric := write_number_numeric floats value formed
      cases text : writeNumber lib value with
      | nil => exact absurd text (write_number_nonempty floats value formed)
      | cons c rest =>
          simp only [text, List.all_cons, Bool.and_eq_true] at numeric
          exact ⟨c, rest, by rw [writeJson, text], by simp only [leadKind, numeric.1, if_true, kind]⟩
  | string text => exact ⟨_, _, rfl, by simp [leadKind, kind, isNumeric]⟩
  | array values => exact ⟨_, _, rfl, by simp [leadKind, kind, isNumeric]⟩
  | object fields => exact ⟨_, _, rfl, by simp [leadKind, kind, isNumeric]⟩

theorem write_json_kind (floats : PrintsFloats lib) (left right : Value) (leftFormed : Printable left)
    (rightFormed : Printable right) (a b : List Char) (same : writeJson lib left ++ a = writeJson lib right ++ b) :
    kind left = kind right := by
  obtain ⟨c, _, leftText, leftKind⟩ := write_json_lead floats left leftFormed
  obtain ⟨d, _, rightText, rightKind⟩ := write_json_lead floats right rightFormed
  rw [leftText, rightText, List.cons_append, List.cons_append, List.cons.injEq] at same
  rw [← leftKind, ← rightKind, same.1]

theorem elements_tail_stops (values : List Value) (rest : List Char) : Stops (elementsTail lib values ++ ']' :: rest) := by
  cases values <;> exact stops_cons _ _ (by decide)

theorem fields_tail_stops (fields : List (String × Value)) (rest : List Char) :
    Stops (fieldsTail lib fields ++ '}' :: rest) := by
  cases fields <;> exact stops_cons _ _ (by decide)

theorem write_json_not_close (floats : PrintsFloats lib) (value : Value) (formed : Printable value) (a b : List Char)
    (c : Char) (close : leadKind c = 6) : c :: a ≠ writeJson lib value ++ b := by
  intro same
  obtain ⟨d, _, text, lead⟩ := write_json_lead floats value formed
  rw [text, List.cons_append, List.cons.injEq] at same
  rw [← same.1, close] at lead
  cases value <;> simp [kind] at lead

mutual
-- A printed value followed by anything a number cannot run on into is read in one way.
theorem write_json_cancel (floats : PrintsFloats lib) (left right : Value) (leftFormed : Printable left)
    (rightFormed : Printable right) (a b : List Char) (stopA : Stops a) (stopB : Stops b)
    (same : writeJson lib left ++ a = writeJson lib right ++ b) : left = right ∧ a = b := by
  have sameKind := write_json_kind floats left right leftFormed rightFormed a b same
  cases left with
  | null =>
      cases right <;> simp only [kind, reduceCtorEq, OfNat.zero_ne_ofNat] at sameKind
      exact ⟨rfl, List.append_cancel_left same⟩
  | bool left =>
      cases right <;> simp only [kind, reduceCtorEq, OfNat.one_ne_ofNat] at sameKind
      rename_i right
      cases left <;> cases right <;> simp_all [writeJson]
  | number left =>
      cases right <;> simp only [kind, Nat.reduceEqDiff] at sameKind
      rename_i right
      obtain ⟨number, after⟩ := write_number_cancel floats left right leftFormed rightFormed a b stopA stopB same
      exact ⟨by rw [number], after⟩
  | string left =>
      cases right <;> simp only [kind, Nat.reduceEqDiff] at sameKind
      rename_i right
      obtain ⟨text, after⟩ := write_string_cancel left right a b same
      exact ⟨by rw [text], after⟩
  | array left =>
      cases right <;> simp only [kind, Nat.reduceEqDiff] at sameKind
      rename_i right
      simp only [writeJson, List.cons_append, List.append_assoc, List.nil_append, List.cons.injEq, true_and] at same
      obtain ⟨values, after⟩ := write_elements_cancel floats left right leftFormed rightFormed a b same
      exact ⟨by rw [values], after⟩
  | object left =>
      cases right <;> simp only [kind, Nat.reduceEqDiff] at sameKind
      rename_i right
      simp only [writeJson, List.cons_append, List.append_assoc, List.nil_append, List.cons.injEq, true_and] at same
      obtain ⟨fields, after⟩ := write_fields_cancel floats left right leftFormed rightFormed a b same
      exact ⟨by rw [fields], after⟩
theorem write_elements_cancel (floats : PrintsFloats lib) (left right : List Value) (leftFormed : PrintableElements left)
    (rightFormed : PrintableElements right) (a b : List Char)
    (same : writeElements lib left ++ ']' :: a = writeElements lib right ++ ']' :: b) : left = right ∧ a = b := by
  match left, right with
  | [], [] => exact ⟨rfl, (List.cons.inj same).2⟩
  | [], value :: rest =>
      rw [write_elements_cons, List.append_assoc] at same
      exact absurd same (write_json_not_close floats value rightFormed.1 _ _ _ (by decide))
  | value :: rest, [] =>
      rw [write_elements_cons, List.append_assoc] at same
      exact absurd same.symm (write_json_not_close floats value leftFormed.1 _ _ _ (by decide))
  | value :: rest, other :: others =>
      rw [write_elements_cons, write_elements_cons, List.append_assoc, List.append_assoc] at same
      obtain ⟨first, tail⟩ := write_json_cancel floats value other leftFormed.1 rightFormed.1 _ _
        (elements_tail_stops rest a) (elements_tail_stops others b) same
      obtain ⟨values, after⟩ := elements_tail_cancel floats rest others leftFormed.2 rightFormed.2 a b tail
      exact ⟨by rw [first, values], after⟩
theorem elements_tail_cancel (floats : PrintsFloats lib) (left right : List Value) (leftFormed : PrintableElements left)
    (rightFormed : PrintableElements right) (a b : List Char)
    (same : elementsTail lib left ++ ']' :: a = elementsTail lib right ++ ']' :: b) : left = right ∧ a = b := by
  match left, right with
  | [], [] => exact ⟨rfl, (List.cons.inj same).2⟩
  | [], value :: rest => cases same
  | value :: rest, [] => cases same
  | value :: rest, other :: others =>
      simp only [elementsTail, List.flatMap_cons, List.cons_append, List.append_assoc, List.cons.injEq, true_and] at same
      obtain ⟨first, tail⟩ := write_json_cancel floats value other leftFormed.1 rightFormed.1 _ _
        (elements_tail_stops rest a) (elements_tail_stops others b) same
      obtain ⟨values, after⟩ := elements_tail_cancel floats rest others leftFormed.2 rightFormed.2 a b tail
      exact ⟨by rw [first, values], after⟩
theorem write_fields_cancel (floats : PrintsFloats lib) (left right : List (String × Value))
    (leftFormed : PrintableFields left) (rightFormed : PrintableFields right) (a b : List Char)
    (same : writeFields lib left ++ '}' :: a = writeFields lib right ++ '}' :: b) : left = right ∧ a = b := by
  match left, right with
  | [], [] => exact ⟨rfl, (List.cons.inj same).2⟩
  | [], (key, value) :: rest =>
      rw [write_fields_cons] at same
      cases same
  | (key, value) :: rest, [] =>
      rw [write_fields_cons] at same
      cases same
  | (key, value) :: rest, (name, other) :: others =>
      rw [write_fields_cons, write_fields_cons, List.append_assoc, List.append_assoc] at same
      obtain ⟨text, colon⟩ := write_string_cancel key name _ _ same
      simp only [List.cons_append, List.append_assoc, List.cons.injEq, true_and] at colon
      obtain ⟨first, tail⟩ := write_json_cancel floats value other leftFormed.1 rightFormed.1 _ _
        (fields_tail_stops rest a) (fields_tail_stops others b) colon
      obtain ⟨fields, after⟩ := fields_tail_cancel floats rest others leftFormed.2 rightFormed.2 a b tail
      exact ⟨by rw [text, first, fields], after⟩
theorem fields_tail_cancel (floats : PrintsFloats lib) (left right : List (String × Value))
    (leftFormed : PrintableFields left) (rightFormed : PrintableFields right) (a b : List Char)
    (same : fieldsTail lib left ++ '}' :: a = fieldsTail lib right ++ '}' :: b) : left = right ∧ a = b := by
  match left, right with
  | [], [] => exact ⟨rfl, (List.cons.inj same).2⟩
  | [], (key, value) :: rest => cases same
  | (key, value) :: rest, [] => cases same
  | (key, value) :: rest, (name, other) :: others =>
      simp only [fieldsTail, List.flatMap_cons, List.cons_append, List.append_assoc, List.cons.injEq, true_and] at same
      obtain ⟨text, colon⟩ := write_string_cancel key name _ _ same
      simp only [List.cons.injEq, true_and] at colon
      obtain ⟨first, tail⟩ := write_json_cancel floats value other leftFormed.1 rightFormed.1 _ _
        (fields_tail_stops rest a) (fields_tail_stops others b) colon
      obtain ⟨fields, after⟩ := fields_tail_cancel floats rest others leftFormed.2 rightFormed.2 a b tail
      exact ⟨by rw [text, first, fields], after⟩
end

theorem utf8_injective (left right : List Char) (same : utf8 left = utf8 right) : left = right := by
  have bytes : left.utf8Encode = right.utf8Encode := congrArg List.toByteArray same
  rw [← String.toByteArray_ofList, ← String.toByteArray_ofList, String.toByteArray_inj] at bytes
  exact String.ofList_injective bytes

theorem write_json_injective (floats : PrintsFloats lib) (left right : Value) (leftFormed : Printable left)
    (rightFormed : Printable right) (same : utf8 (writeJson lib left) = utf8 (writeJson lib right)) : left = right := by
  have text := utf8_injective _ _ same
  have stop : Stops [] := fun c first => by cases first
  exact (write_json_cancel floats left right leftFormed rightFormed [] [] stop stop (by rw [text])).1

-- The canonical text says everything but the order the fields stood in.
theorem canonical_json_sorted (floats : PrintsFloats lib) (left right : Value) (leftFormed : Printable left)
    (rightFormed : Printable right) : canonicalJson lib left = canonicalJson lib right ↔ sortKeys left = sortKeys right :=
  ⟨fun same => write_json_injective floats _ _ (sort_keys_printable left leftFormed) (sort_keys_printable right rightFormed) same,
    fun same => by rw [canonicalJson, canonicalJson, same]⟩

theorem canonical_json_injective (floats : PrintsFloats lib) (left right : Value) (leftFormed : WellFormed left)
    (rightFormed : WellFormed right) (same : canonicalJson lib left = canonicalJson lib right) : left = right := by
  have sorted := (canonical_json_sorted floats left right (well_formed_printable left leftFormed)
    (well_formed_printable right rightFormed)).mp same
  rwa [sort_keys_well_formed left leftFormed, sort_keys_well_formed right rightFormed] at sorted

theorem hex_byte_no_newline (byte : UInt8) : '\n' ∉ hexByte byte := by
  intro member
  have lower := hex_encode_lower [byte]
  simp only [hexEncode, List.flatMap_cons, List.flatMap_nil, List.append_nil, List.all_eq_true] at lower
  exact absurd (lower _ member) (by decide)

theorem escape_char_no_newline (c : Char) : '\n' ∉ escapeChar c := by
  intro member
  unfold escapeChar at member
  iterate 7
    split at member
    · simp at member
  split at member
  · simp [hex_byte_no_newline] at member
  · rename_i newline _ _ _
    rw [List.mem_singleton] at member
    exact newline (by rw [← member]; rfl)

theorem write_string_no_newline (text : String) : '\n' ∉ writeString text := by
  simp [writeString, escape_char_no_newline]

theorem write_number_no_newline (floats : PrintsFloats lib) (value : Number) (formed : value.WellFormed) :
    '\n' ∉ writeNumber lib value := by
  intro member
  have numeric := List.all_eq_true.mp (write_number_numeric floats value formed) _ member
  exact absurd numeric (by decide)

mutual
theorem write_json_no_newline (floats : PrintsFloats lib) (value : Value) (formed : WellFormed value) :
    '\n' ∉ writeJson lib value := by
  cases value with
  | null => simp [writeJson]
  | bool value => cases value <;> simp [writeJson]
  | number value => exact write_number_no_newline floats value formed
  | string text => exact write_string_no_newline text
  | array values =>
      cases values with
      | nil => simp [writeJson, writeElements]
      | cons value rest =>
          have first := write_json_no_newline floats value formed.1
          have others := elements_tail_no_newline floats rest formed.2
          simp [writeJson, write_elements_cons, first, others]
  | object fields =>
      match fields with
      | [] => simp [writeJson, writeFields]
      | (key, value) :: rest =>
          have first := write_json_no_newline floats value formed.1.1
          have others := fields_tail_no_newline floats rest formed.1.2
          simp [writeJson, write_fields_cons, write_string_no_newline, first, others]
theorem elements_tail_no_newline (floats : PrintsFloats lib) (values : List Value) (formed : WellFormedElements values) :
    '\n' ∉ elementsTail lib values := by
  cases values with
  | nil => exact List.not_mem_nil
  | cons value rest =>
      have first := write_json_no_newline floats value formed.1
      have others := elements_tail_no_newline floats rest formed.2
      rw [elementsTail] at others
      simp [elementsTail, first, others]
theorem fields_tail_no_newline (floats : PrintsFloats lib) (fields : List (String × Value))
    (formed : WellFormedFields fields) : '\n' ∉ fieldsTail lib fields := by
  match fields with
  | [] => exact List.not_mem_nil
  | (key, value) :: rest =>
      have first := write_json_no_newline floats value formed.1
      have others := fields_tail_no_newline floats rest formed.2
      rw [fieldsTail] at others
      simp [fieldsTail, write_string_no_newline, first, others]
end

theorem small_byte (code value : Nat) (small : code < 256) (bound : value < 256) (same : UInt8.ofNat code = UInt8.ofNat value) :
    value = code := by
  have size := congrArg UInt8.toNat same
  rw [UInt8.toNat_ofNat_of_lt' small, UInt8.toNat_ofNat_of_lt' bound] at size
  exact size.symm

-- Every byte of a longer encoding is at least 0x80.
theorem encode_char_ascii (code : Nat) (ascii : code < 128) (c : Char) (member : UInt8.ofNat code ∈ String.utf8EncodeChar c) :
    c = Char.ofNat code := by
  unfold String.utf8EncodeChar at member
  dsimp only at member
  split at member
  · have value := small_byte code c.val.toNat (by omega) (by omega) (List.mem_singleton.mp member)
    exact char_of_to_nat c code value
  split at member
  · simp only [List.mem_cons, List.not_mem_nil, or_false] at member
    rcases member with same | same <;> exact absurd (small_byte code _ (by omega) (by omega) same) (by omega)
  split at member
  · simp only [List.mem_cons, List.not_mem_nil, or_false] at member
    rcases member with same | same | same <;> exact absurd (small_byte code _ (by omega) (by omega) same) (by omega)
  · simp only [List.mem_cons, List.not_mem_nil, or_false] at member
    rcases member with same | same | same | same <;> exact absurd (small_byte code _ (by omega) (by omega) same) (by omega)

theorem encode_char_newline (c : Char) (member : 10 ∈ String.utf8EncodeChar c) : c = '\n' :=
  encode_char_ascii 10 (by decide) c member

theorem utf8_no_newline (text : List Char) (absent : '\n' ∉ text) : 10 ∉ utf8 text := by
  intro member
  obtain ⟨c, inside, encoded⟩ := List.mem_flatMap.mp member
  exact absent (encode_char_newline c encoded ▸ inside)

theorem canonical_json_no_newline (floats : PrintsFloats lib) (value : Value) (formed : WellFormed value) :
    10 ∉ canonicalJson lib value := by
  rw [canonical_json_well_formed lib value formed]
  exact utf8_no_newline _ (write_json_no_newline floats value formed)

end SessionSync.Core
