import SessionSync.Core.Json

set_option autoImplicit false

namespace SessionSync.Core

variable (lib : Primitives)

mutual
-- A bound on the text of a value that does not look at the order of its keys.
def width : Value → Nat
  | .null => 4
  | .bool _ => 5
  | .number value => (writeNumber lib value).length
  | .string text => (writeString text).length
  | .array values => 2 + widthElements values
  | .object fields => 2 + widthFields fields
def widthElements : List Value → Nat
  | [] => 0
  | value :: rest => width value + 1 + widthElements rest
def widthFields : List (String × Value) → Nat
  | [] => 0
  | (key, value) :: rest => (writeString key).length + width value + 2 + widthFields rest
end

mutual
theorem write_json_width (value : Value) : (writeJson lib value).length ≤ width lib value := by
  cases value with
  | null => exact le_refl _
  | bool value => cases value <;> simp [writeJson, width]
  | number value => exact le_refl _
  | string text => exact le_refl _
  | array values =>
      have elements := write_elements_width values
      simp only [writeJson, width, List.length_cons, List.length_append, List.length_nil]
      omega
  | object fields =>
      have inner := write_fields_width fields
      simp only [writeJson, width, List.length_cons, List.length_append, List.length_nil]
      omega
theorem write_elements_width (values : List Value) : (writeElements lib values).length ≤ widthElements lib values := by
  match values with
  | [] => exact le_refl _
  | [value] =>
      have one := write_json_width value
      simp only [writeElements, widthElements]
      omega
  | value :: next :: rest =>
      have one := write_json_width value
      have others := write_elements_width (next :: rest)
      simp only [writeElements, List.length_append, List.length_cons]
      rw [widthElements]
      omega
theorem write_fields_width (fields : List (String × Value)) : (writeFields lib fields).length ≤ widthFields lib fields := by
  match fields with
  | [] => exact le_refl _
  | [(key, value)] =>
      have one := write_json_width value
      simp only [writeFields, widthFields, List.length_append, List.length_cons]
      omega
  | (key, value) :: next :: rest =>
      have one := write_json_width value
      have others := write_fields_width (next :: rest)
      simp only [writeFields, List.length_append, List.length_cons]
      rw [widthFields]
      omega
end

mutual
-- The bound is at most twice the text.
theorem width_write_json (value : Value) : width lib value ≤ 2 * (writeJson lib value).length := by
  cases value with
  | null => simp [writeJson, width]
  | bool value => cases value <;> simp [writeJson, width]
  | number value =>
      simp only [writeJson, width]
      omega
  | string text =>
      simp only [writeJson, width]
      omega
  | array values =>
      have elements := width_write_elements values
      simp only [writeJson, width, List.length_cons, List.length_append, List.length_nil]
      omega
  | object fields =>
      have inner := width_write_fields fields
      simp only [writeJson, width, List.length_cons, List.length_append, List.length_nil]
      omega
theorem width_write_elements (values : List Value) : widthElements lib values ≤ 2 * (writeElements lib values).length + 1 := by
  match values with
  | [] => exact Nat.zero_le _
  | [value] =>
      have one := width_write_json value
      simp only [writeElements, widthElements]
      omega
  | value :: next :: rest =>
      have one := width_write_json value
      have others := width_write_elements (next :: rest)
      simp only [writeElements, List.length_append, List.length_cons]
      rw [widthElements]
      omega
theorem width_write_fields (fields : List (String × Value)) : widthFields lib fields ≤ 2 * (writeFields lib fields).length + 1 := by
  match fields with
  | [] => exact Nat.zero_le _
  | [(key, value)] =>
      have one := width_write_json value
      simp only [writeFields, widthFields, List.length_append, List.length_cons]
      omega
  | (key, value) :: next :: rest =>
      have one := width_write_json value
      have others := width_write_fields (next :: rest)
      simp only [writeFields, List.length_append, List.length_cons]
      rw [widthFields]
      omega
end

theorem width_fields_perm (fields other : List (String × Value)) (same : fields.Perm other) :
    widthFields lib fields = widthFields lib other := by
  induction same with
  | nil => rfl
  | cons field _ ih => simp only [widthFields, ih]
  | swap one two rest =>
      simp only [widthFields]
      omega
  | trans _ _ first second => exact first.trans second

mutual
theorem width_sort_keys (value : Value) : width lib (sortKeys value) = width lib value := by
  cases value with
  | null => rfl
  | bool value => rfl
  | number value => rfl
  | string text => rfl
  | array values => rw [sortKeys, width, width, width_sort_elements values]
  | object fields =>
      rw [sortKeys, width, width, width_fields_perm lib _ _ (List.perm_insertionSort _ _), width_sort_fields fields]
theorem width_sort_elements (values : List Value) : widthElements lib (sortElements values) = widthElements lib values := by
  match values with
  | [] => rfl
  | value :: rest => rw [sortElements, widthElements, widthElements, width_sort_keys value, width_sort_elements rest]
theorem width_sort_fields (fields : List (String × Value)) : widthFields lib (sortFields fields) = widthFields lib fields := by
  match fields with
  | [] => rfl
  | (key, value) :: rest => rw [sortFields, widthFields, widthFields, width_sort_keys value, width_sort_fields rest]
end

theorem utf8_length (text : List Char) : (utf8 text).length ≤ 4 * text.length := by
  induction text with
  | nil => exact le_refl _
  | cons c rest ih =>
      have one : (String.utf8EncodeChar c).length ≤ 4 := by
        rw [String.length_utf8EncodeChar]
        exact Char.utf8Size_le_four c
      simp only [utf8, List.flatMap_cons, List.length_append, List.length_cons] at ih ⊢
      omega

theorem canonical_json_length (value : Value) : (canonicalJson lib value).length ≤ 4 * width lib value := by
  have text := write_json_width lib (sortKeys value)
  have encoded := utf8_length (writeJson lib (sortKeys value))
  rw [width_sort_keys] at text
  rw [canonicalJson]
  omega

theorem utf8_longer (text : List Char) : text.length ≤ (utf8 text).length := by
  induction text with
  | nil => exact le_refl _
  | cons c rest ih =>
      have one := Char.utf8Size_pos c
      simp only [utf8, List.flatMap_cons, List.length_append, String.length_utf8EncodeChar, List.length_cons] at ih ⊢
      omega

theorem canonical_json_longer (value : Value) : width lib value ≤ 2 * (canonicalJson lib value).length := by
  have text := width_write_json lib (sortKeys value)
  have encoded := utf8_longer (writeJson lib (sortKeys value))
  rw [width_sort_keys] at text
  rw [canonicalJson]
  omega

theorem escape_longer (text : List Char) : text.length ≤ (text.flatMap escapeChar).length := by
  induction text with
  | nil => exact le_refl _
  | cons c rest ih =>
      have one : 0 < (escapeChar c).length := by
        unfold escapeChar
        split_ifs <;> simp
      simp only [List.flatMap_cons, List.length_append, List.length_cons] at ih ⊢
      omega

theorem escape_length (c : Char) : (escapeChar c).length ≤ 6 := by
  unfold escapeChar
  split_ifs <;> simp [hexByte]

theorem write_string_length (text : String) : (writeString text).length ≤ 6 * text.toList.length + 2 := by
  have escaped : ∀ chars : List Char, (chars.flatMap escapeChar).length ≤ 6 * chars.length := by
    intro chars
    induction chars with
    | nil => exact le_refl _
    | cons c rest ih =>
        have one := escape_length c
        simp only [List.flatMap_cons, List.length_append, List.length_cons]
        omega
  have inner := escaped text.toList
  simp only [writeString, List.length_cons, List.length_append, List.length_nil]
  omega

theorem digest_bytes_length (bytes : Bytes) : (digestBytes lib bytes).toList.length = 71 := by
  have digits := hex_encode_length (lib.sha256 bytes).toList
  have size : (lib.sha256 bytes).toList.length = 32 := Vector.length_toList
  have mark : "sha256:".toList.length = 7 := by decide
  have written : (digestBytes lib bytes).toList = "sha256:".toList ++ hexEncode (lib.sha256 bytes).toList :=
    String.toList_ofList
  rw [written, List.length_append]
  omega

theorem write_digest_length (bytes : Bytes) : (writeString (digestBytes lib bytes)).length ≤ 428 := by
  have bound := write_string_length (digestBytes lib bytes)
  rw [digest_bytes_length] at bound
  omega

end SessionSync.Core
