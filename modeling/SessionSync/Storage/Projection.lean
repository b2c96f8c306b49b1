import SessionSync.Storage.Descriptor

set_option autoImplicit false

namespace SessionSync.Storage

open SessionSync.Core

variable (reread : UInt64 → UInt64)

mutual
-- What serde_json makes of a value it printed: by default its parser may miss the
-- last digit of a float, and `reread` is the float it finds.
def rereadValue : Value → Value
  | .null => .null
  | .bool value => .bool value
  | .number (.posInt value) => .number (.posInt value)
  | .number (.negInt value) => .number (.negInt value)
  | .number (.float bits) => .number (.float (reread bits))
  | .string text => .string text
  | .array values => .array (rereadElements values)
  | .object fields => .object (rereadFields fields)
def rereadElements : List Value → List Value
  | [] => []
  | value :: rest => rereadValue value :: rereadElements rest
def rereadFields : Fields → Fields
  | [] => []
  | (key, value) :: rest => (key, rereadValue value) :: rereadFields rest
end

-- A value as it comes back from a stored descriptor.
def storedValue (value : Value) : Value := rereadValue reread (projectValueV4 value)

mutual
-- Storing changes nothing in the value: no machine key at any depth, and floats
-- that are read back as they were.
def Plain : Value → Prop
  | .null => True
  | .bool _ => True
  | .number (.posInt _) => True
  | .number (.negInt _) => True
  | .number (.float bits) => reread bits = bits
  | .string _ => True
  | .array values => PlainElements values
  | .object fields => PlainFields fields
def PlainElements : List Value → Prop
  | [] => True
  | value :: rest => Plain value ∧ PlainElements rest
def PlainFields : Fields → Prop
  | [] => True
  | (key, value) :: rest => key ∉ machineKeysV4 ∧ Plain value ∧ PlainFields rest
end

variable {reread}

theorem stored_fields_length (fields : Fields) : (rereadFields reread (projectFieldsV4 fields)).length ≤ fields.length := by
  induction fields with
  | nil => exact le_refl _
  | cons field rest ih =>
      obtain ⟨key, value⟩ := field
      unfold projectFieldsV4
      split
      · exact Nat.le_succ_of_le ih
      · exact Nat.succ_le_succ ih

mutual
theorem stored_value_iff (value : Value) : rereadValue reread (projectValueV4 value) = value ↔ Plain reread value := by
  cases value with
  | null => exact iff_of_true rfl trivial
  | bool value => exact iff_of_true rfl trivial
  | number value => cases value <;> simp [projectValueV4, rereadValue, Plain]
  | string text => exact iff_of_true rfl trivial
  | array values =>
      rw [projectValueV4, rereadValue, Value.array.injEq]
      exact stored_elements_iff values
  | object fields =>
      rw [projectValueV4, rereadValue, Value.object.injEq]
      exact stored_fields_iff fields
theorem stored_elements_iff (values : List Value) :
    rereadElements reread (projectElementsV4 values) = values ↔ PlainElements reread values := by
  cases values with
  | nil => exact iff_of_true rfl trivial
  | cons value rest =>
      rw [projectElementsV4, rereadElements, List.cons.injEq]
      exact and_congr (stored_value_iff value) (stored_elements_iff rest)
theorem stored_fields_iff (fields : Fields) : rereadFields reread (projectFieldsV4 fields) = fields ↔ PlainFields reread fields := by
  match fields with
  | [] => exact iff_of_true rfl trivial
  | (key, value) :: rest =>
      unfold projectFieldsV4 PlainFields
      by_cases machine : key ∈ machineKeysV4
      · refine iff_of_false (fun same => ?_) (fun plain => plain.1 machine)
        rw [if_pos machine] at same
        have size := congrArg List.length same
        have bound : (rereadFields reread (projectFieldsV4 rest)).length ≤ rest.length := stored_fields_length rest
        rw [List.length_cons] at size
        omega
      · rw [if_neg machine, rereadFields, List.cons.injEq, Prod.mk.injEq]
        simp only [true_and, machine, not_false_eq_true]
        exact and_congr (stored_value_iff value) (stored_fields_iff rest)
end

theorem reread_fields (fields : Fields) : rereadFields reread fields = fields.map fun field =>
    (field.1, rereadValue reread field.2) := by
  induction fields with
  | nil => rfl
  | cons field rest ih => simp only [rereadFields, ih, List.map_cons]

variable (reread) in
def storedField (field : String × Value) : String × Value := (field.1, storedValue reread field.2)

theorem stored_object (row : Fields) :
    storedValue reread (.object row) = .object ((row.filter fun field => neutralKey field.1).map (storedField reread)) := by
  rw [storedValue, projectValueV4, rereadValue, reread_fields, project_fields, List.map_map]
  rfl

theorem stored_null (value : Value) : (storedValue reread value).isNull = value.isNull := by
  cases value with
  | number value => cases value <;> rfl
  | null | bool | string | array | object => rfl

theorem stored_i64 (value : Value) : (storedValue reread value).asI64 = value.asI64 := by
  cases value with
  | number value => cases value <;> rfl
  | null | bool | string | array | object => rfl

theorem stored_str (value : Value) : (storedValue reread value).asStr = value.asStr := by
  cases value with
  | number value => cases value <;> rfl
  | null | bool | string | array | object => rfl

theorem stored_column {α : Type} (read : Value → Option α) (same : ∀ value, read (storedValue reread value) = read value)
    (row : Fields) (name : String) :
    (fieldOf (row.map (storedField reread)) name).bind read = (fieldOf row name).bind read := by
  have looked := field_map (storedValue reread) row name
  unfold storedField
  rw [looked, Option.bind_map]
  exact congrArg _ (funext same)

theorem remove_stored (name : String) (row : Fields) :
    removeField name (row.map (storedField reread)) = (removeField name row).map (storedField reread) := by
  rw [removeField, removeField, List.filter_map]
  rfl

theorem stored_threads_row (row : Fields) :
    threadsRowView (row.map (storedField reread)) = (threadsRowView row).map (storedField reread) := by
  unfold threadsRowView
  simp only [stored_column _ stored_i64, stored_column _ stored_str, ← apply_ite (List.map (storedField reread)), remove_stored]

-- The columns a row shows to the hash.
def shownColumns (table : String) (row : Fields) : Fields :=
  let row := removeField "cwd" (removeField "model_provider" (removeField "codex_home" (removeField "rollout_path" row)))
  let row := row.filter fun field => !field.2.isNull
  if table = "threads" then threadsRowView row else row

theorem row_view_object (table : String) (row : Fields) : rowView table (.object row) = .object (shownColumns table row) := rfl

theorem remove_four (row : Fields) :
    removeField "cwd" (removeField "model_provider" (removeField "codex_home" (removeField "rollout_path" row))) =
      row.filter fun field => neutralKey field.1 && decide (field.1 ≠ "cwd") := by
  simp only [removeField, List.filter_filter]
  refine List.filter_congr fun field _ => ?_
  simp only [neutralKey, machineKeysV4, List.mem_cons, List.not_mem_nil, or_false, not_or, Bool.decide_and, ne_eq]
  ac_rfl

theorem shown_stored (table : String) (row : Fields) :
    shownColumns table ((row.filter fun field => neutralKey field.1).map (storedField reread)) =
      (shownColumns table row).map (storedField reread) := by
  have shown : ∀ fields : Fields, (fields.map (storedField reread)).filter (fun field => !field.2.isNull) =
      (fields.filter fun field => !field.2.isNull).map (storedField reread) := by
    intro fields
    rw [List.filter_map]
    refine congrArg _ (List.filter_congr fun field _ => ?_)
    exact congrArg not (stored_null field.2)
  have twice : (row.filter fun field => neutralKey field.1).filter (fun field => neutralKey field.1 && decide (field.1 ≠ "cwd")) =
      row.filter fun field => neutralKey field.1 && decide (field.1 ≠ "cwd") := by
    rw [List.filter_filter]
    refine List.filter_congr fun field _ => ?_
    cases neutralKey field.1 <;> simp
  simp only [shownColumns, remove_stored, shown]
  rw [remove_four, remove_four, twice, stored_threads_row, apply_ite (List.map (storedField reread))]

variable (reread) in
-- A row that the hash sees alike before and after it was stored.
def PlainRow (table : String) : Value → Prop
  | .object row => ∀ field ∈ shownColumns table row, Plain reread field.2
  | other => Plain reread other

theorem map_stored_iff (fields : Fields) : fields.map (storedField reread) = fields ↔ ∀ field ∈ fields, Plain reread field.2 := by
  induction fields with
  | nil => simp
  | cons field rest ih =>
      rw [List.map_cons, List.cons.injEq, ih, List.forall_mem_cons, ← stored_value_iff]
      refine and_congr_left fun _ => ?_
      rw [storedField, Prod.ext_iff]
      exact and_iff_right rfl

theorem row_view_stored (table : String) (row : Value) :
    rowView table (storedValue reread row) = rowView table row ↔ PlainRow reread table row := by
  cases row with
  | object row =>
      rw [stored_object, row_view_object, row_view_object, shown_stored, Value.object.injEq, map_stored_iff]
      rfl
  | number value => cases value <;> exact stored_value_iff _
  | null | bool | string | array => exact stored_value_iff _

theorem rows_view_stored (table : String) (rows : List Value) :
    (rows.map (storedValue reread)).map (rowView table) = rows.map (rowView table) ↔ ∀ row ∈ rows, PlainRow reread table row := by
  induction rows with
  | nil => simp
  | cons row rest ih =>
      rw [List.map_cons, List.map_cons, List.map_cons, List.cons.injEq, ih, List.forall_mem_cons, row_view_stored]

end SessionSync.Storage
