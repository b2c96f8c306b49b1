import SessionSync.Storage.Descriptor

set_option autoImplicit false

namespace SessionSync.Storage

open SessionSync.Core

-- Every row of the tables is a value that serde_json can hold.
def RowsFormed (tables : Std.ExtTreeMap String (List Value)) : Prop :=
  ∀ (table : String) (rows : List Value), tables[table]? = some rows → ∀ row ∈ rows, WellFormed row

theorem table_rows_formed (tables : Std.ExtTreeMap String (List Value)) (formed : RowsFormed tables) (table : String × List Value)
    (member : table ∈ tables.toList) : ∀ row ∈ table.2, WellFormed row :=
  formed table.1 table.2 (Std.ExtTreeMap.mem_toList_iff_getElem?_eq_some.mp member)

theorem project_rows_formed (records : RelatedRecords) (formed : RowsFormed records.tables) :
    RowsFormed (projectRelatedRecordsV4 records) := by
  intro table rows held row member
  rw [projected_table] at held
  by_cases timeline : table = timelineTable
  · rw [if_pos timeline] at held
    cases held
  · rw [if_neg timeline] at held
    obtain ⟨source, found, rfl⟩ := Option.map_eq_some_iff.mp held
    obtain ⟨before, inside, rfl⟩ := List.mem_map.mp member
    exact project_value_formed before (formed table source found before inside)

theorem tables_printable (tables : Std.ExtTreeMap String (List Value)) (formed : RowsFormed tables) :
    PrintableFields (tables.toList.map fun table => (table.1, .array table.2)) := by
  refine (printable_fields _).mpr fun field member => ?_
  obtain ⟨table, listed, rfl⟩ := List.mem_map.mp member
  exact (printable_elements _).mpr fun row inside =>
    well_formed_printable row (table_rows_formed tables formed table listed row inside)

def mapFields {α : Type} (encode : α → Value) (map : Std.ExtTreeMap String α) : Fields :=
  map.toList.map fun entry => (entry.1, encode entry.2)

theorem sort_map_fields {α : Type} (encode : α → Value) (map : Std.ExtTreeMap String α) :
    sortFields (mapFields encode map) = mapFields (fun value => sortKeys (encode value)) map := by
  unfold mapFields
  induction map.toList with
  | nil => rfl
  | cons entry rest ih => simp only [List.map_cons, sortFields, ih]

-- A map's fields sort to one value only where the maps are one.
theorem map_sorted_injective {α : Type} (encode : α → Value) (good : α → Prop)
    (apart : ∀ one other, good one → good other → sortKeys (encode one) = sortKeys (encode other) → one = other)
    (left right : Std.ExtTreeMap String α) (leftGood : ∀ (key : String) (value : α), left[key]? = some value → good value)
    (rightGood : ∀ (key : String) (value : α), right[key]? = some value → good value)
    (same : sortKeys (.object (mapFields encode left)) = sortKeys (.object (mapFields encode right))) : left = right := by
  simp only [sortKeys, sort_map_fields, Value.object.injEq] at same
  have moved := ((List.perm_insertionSort _ _).symm.trans (.of_eq same)).trans (List.perm_insertionSort _ _)
  refine Std.ExtTreeMap.ext_toList (Keyed.perm_of_map_perm _ _ _ (fun one member other found equal => ?_) moved)
  obtain ⟨key, value⟩ := Prod.mk.inj equal
  refine Prod.ext key (apart one.2 other.2 ?_ ?_ value)
  · exact leftGood one.1 one.2 (Std.ExtTreeMap.mem_toList_iff_getElem?_eq_some.mp member)
  · exact rightGood other.1 other.2 (Std.ExtTreeMap.mem_toList_iff_getElem?_eq_some.mp found)

theorem tables_sorted_injective (left right : Std.ExtTreeMap String (List Value)) (leftFormed : RowsFormed left)
    (rightFormed : RowsFormed right)
    (same : sortKeys (.object (mapFields .array left)) = sortKeys (.object (mapFields .array right))) :
    left = right := by
  refine map_sorted_injective .array (fun rows => ∀ row ∈ rows, WellFormed row) ?_ left right leftFormed rightFormed same
  intro one other oneFormed otherFormed equal
  rw [sort_keys_well_formed (.array one) ((well_formed_elements_iff one).mpr oneFormed),
    sort_keys_well_formed (.array other) ((well_formed_elements_iff other).mpr otherFormed)] at equal
  exact Value.array.inj equal

theorem option_printable {α : Type} (encode : α → Value) (value : Option α) (printable : ∀ held, Printable (encode held)) :
    Printable (Value.option encode value) := by
  cases value with
  | none => trivial
  | some held => exact printable held

theorem int_printable (value : Int64) : Printable (Value.int value) := by
  unfold Value.int
  split
  · rename_i negative
    exact Int64.lt_iff_toInt_lt.mp negative
  · trivial

theorem content_printable (content : ContentRefV4) : Printable content.toValue := by
  have path := option_printable Value.string content.logicalPath fun _ => trivial
  obtain ⟨_, _, storage, _, _⟩ := content
  cases storage <;> exact ⟨trivial, trivial, ⟨trivial, trivial, trivial⟩, trivial, path, trivial⟩

theorem descriptor_printable (descriptor : SemanticThreadDescriptorV4) (formed : RowsFormed descriptor.relatedRecords) :
    Printable descriptor.toValue := by
  refine ⟨trivial, trivial, trivial, trivial, trivial, option_printable _ _ int_printable, option_printable _ _ int_printable,
    ⟨option_printable _ _ fun _ => trivial, option_printable _ _ fun _ => trivial, trivial⟩, content_printable _,
    tables_printable _ formed, ?_, trivial⟩
  refine (printable_elements _).mpr fun value member => ?_
  obtain ⟨content, _, rfl⟩ := List.mem_map.mp member
  exact content_printable content

theorem nat_injective (left right : UInt64) (same : Value.nat left = Value.nat right) : left = right := by
  cases same
  rfl

theorem small_nat_injective (left right : UInt32) (same : Value.nat left.toUInt64 = Value.nat right.toUInt64) : left = right := by
  have wide := nat_injective _ _ same
  exact UInt32.toUInt64_inj.mp wide

theorem int_injective (left right : Int64) (same : Value.int left = Value.int right) : left = right := by
  unfold Value.int at same
  split at same <;> split at same <;> simp only [Value.number.injEq, Number.negInt.injEq, Number.posInt.injEq, reduceCtorEq] at same
  · exact same
  · exact congrArg Int64.ofUInt64 same

theorem sort_int (value : Int64) : sortKeys (Value.int value) = Value.int value := by
  unfold Value.int
  split <;> rfl

theorem option_injective {α : Type} (encode : α → Value) (some_ne : ∀ held, encode held ≠ .null)
    (injective : ∀ left right, encode left = encode right → left = right) (left right : Option α)
    (same : Value.option encode left = Value.option encode right) : left = right := by
  cases left with
  | none =>
      cases right with
      | none => rfl
      | some held => exact absurd same.symm (some_ne held)
  | some one =>
      cases right with
      | none => exact absurd same (some_ne one)
      | some other => rw [injective one other same]

theorem option_string_injective (left right : Option String)
    (same : sortKeys (Value.option .string left) = sortKeys (Value.option .string right)) : left = right := by
  refine option_injective Value.string (fun _ => by simp) (fun _ _ equal => Value.string.inj equal) left right ?_
  cases left <;> cases right <;> exact same

theorem option_int_injective (left right : Option Int64)
    (same : sortKeys (Value.option .int left) = sortKeys (Value.option .int right)) : left = right := by
  refine option_injective Value.int ?_ int_injective left right ?_
  · intro held
    unfold Value.int
    split <;> simp
  · have sorted : ∀ value : Option Int64, sortKeys (Value.option .int value) = Value.option .int value := by
      intro value
      cases value with
      | none => rfl
      | some held => exact sort_int held
    rwa [sorted, sorted] at same

theorem storage_formed (storage : StorageRefV4) : WellFormed storage.toValue := by
  cases storage <;> exact ⟨⟨trivial, trivial, trivial⟩, List.pairwise_pair.mpr (by simp only [String.reduceLT])⟩

theorem storage_sorted_injective (left right : StorageRefV4) (same : sortKeys left.toValue = sortKeys right.toValue) :
    left = right := by
  rw [sort_keys_well_formed _ (storage_formed left), sort_keys_well_formed _ (storage_formed right)] at same
  cases left <;> cases right <;> simp_all [StorageRefV4.toValue]

theorem content_sorted_injective (left right : ContentRefV4) (same : sortKeys left.toValue = sortKeys right.toValue) :
    left = right := by
  have fields := (sort_object_cancel _ _ (by rfl) (by simp)).mp same
  simp only [sortFields, List.cons.injEq, Prod.mk.injEq, true_and, and_true] at fields
  obtain ⟨logical, length, storage, media, path⟩ := fields
  cases left
  cases right
  simp only [ContentRefV4.mk.injEq]
  exact ⟨Value.string.inj logical, nat_injective _ _ length, storage_sorted_injective _ _ storage, Value.string.inj media,
    option_string_injective _ _ path⟩

theorem array_sorted_injective {α : Type} (encode : α → Value)
    (injective : ∀ left right, sortKeys (encode left) = sortKeys (encode right) → left = right)
    (left right : List α) (same : sortKeys (.array (left.map encode)) = sortKeys (.array (right.map encode))) : left = right := by
  simp only [sortKeys, sort_elements_map, List.map_map, Value.array.injEq] at same
  exact List.map_injective_iff.mpr (fun one other equal => injective one other equal) same

theorem workspace_sorted_injective (left right : SemanticWorkspaceV4) (same : sortKeys left.toValue = sortKeys right.toValue) :
    left = right := by
  have fields := (sort_object_cancel _ _ (by rfl) (by simp)).mp same
  simp only [sortFields, List.cons.injEq, Prod.mk.injEq, true_and, and_true] at fields
  cases left
  cases right
  simp only [SemanticWorkspaceV4.mk.injEq]
  exact ⟨option_string_injective _ _ fields.1, option_string_injective _ _ fields.2⟩

theorem descriptor_sorted_injective (left right : SemanticThreadDescriptorV4) (leftFormed : RowsFormed left.relatedRecords)
    (rightFormed : RowsFormed right.relatedRecords) (same : sortKeys left.toValue = sortKeys right.toValue) : left = right := by
  have fields := (sort_object_cancel _ _ (by rfl) (by simp)).mp same
  simp only [sortFields, List.cons.injEq, Prod.mk.injEq, true_and, and_true] at fields
  obtain ⟨schema, normalization, thread, title, archived, created, updated, workspace, rollout, tables, attachments⟩ := fields
  have tables := tables_sorted_injective _ _ leftFormed rightFormed tables
  cases left
  cases right
  simp only [SemanticThreadDescriptorV4.mk.injEq]
  exact ⟨small_nat_injective _ _ schema, small_nat_injective _ _ normalization, Value.string.inj thread, Value.string.inj title,
    Value.bool.inj archived, option_int_injective _ _ created, option_int_injective _ _ updated,
    workspace_sorted_injective _ _ workspace, content_sorted_injective _ _ rollout, tables,
    array_sorted_injective _ content_sorted_injective _ _ attachments⟩

-- The canonical text of a descriptor determines it.
theorem descriptor_text_injective (lib : Primitives) (floats : PrintsFloats lib) (left right : SemanticThreadDescriptorV4)
    (leftFormed : RowsFormed left.relatedRecords) (rightFormed : RowsFormed right.relatedRecords)
    (same : canonicalJson lib left.toValue = canonicalJson lib right.toValue) : left = right :=
  descriptor_sorted_injective left right leftFormed rightFormed
    ((canonical_json_sorted floats _ _ (descriptor_printable left leftFormed) (descriptor_printable right rightFormed)).mp same)

-- An overlay's own fields are values that serde_json can hold.
def LocalThreadOverlayV4.Formed (overlay : LocalThreadOverlayV4) : Prop :=
  ∀ (key : String) (value : Value), overlay.localFields[key]? = some value → WellFormed value

def SnapshotOverlayV4.Formed (overlay : SnapshotOverlayV4) : Prop :=
  ∀ (id : String) (thread : LocalThreadOverlayV4), overlay.threads[id]? = some thread → thread.Formed

theorem local_overlay_printable (overlay : LocalThreadOverlayV4) (formed : overlay.Formed) : Printable overlay.toValue := by
  refine ⟨option_printable _ _ fun _ => trivial, option_printable _ _ fun _ => trivial, option_printable _ _ fun _ => trivial, ?_, ?_,
    trivial⟩
  · refine (printable_elements _).mpr fun value member => ?_
    obtain ⟨hint, _, rfl⟩ := List.mem_map.mp member
    trivial
  · exact (printable_fields _).mpr fun field member =>
      well_formed_printable field.2 (formed field.1 field.2 (Std.ExtTreeMap.mem_toList_iff_getElem?_eq_some.mp member))

theorem overlay_printable (overlay : SnapshotOverlayV4) (formed : overlay.Formed) : Printable overlay.toValue := by
  refine ⟨trivial, trivial, (printable_fields _).mpr fun field member => ?_, trivial⟩
  obtain ⟨thread, listed, rfl⟩ := List.mem_map.mp member
  exact local_overlay_printable thread.2 (formed thread.1 thread.2 (Std.ExtTreeMap.mem_toList_iff_getElem?_eq_some.mp listed))

theorem map_fields_plain (map : Std.ExtTreeMap String Value) : mapFields (fun value => value) map = map.toList :=
  List.map_id map.toList

theorem local_overlay_injective (left right : LocalThreadOverlayV4) (leftFormed : left.Formed) (rightFormed : right.Formed)
    (same : sortKeys left.toValue = sortKeys right.toValue) : left = right := by
  have fields := (sort_object_cancel _ _ (by rfl) (by simp)).mp same
  simp only [sortFields, List.cons.injEq, Prod.mk.injEq, true_and, and_true] at fields
  obtain ⟨provider, workspace, rollout, hints, locals⟩ := fields
  have locals := map_sorted_injective (fun value => value) WellFormed
    (fun one other oneFormed otherFormed equal => by
      rwa [sort_keys_well_formed one oneFormed, sort_keys_well_formed other otherFormed] at equal)
    left.localFields right.localFields leftFormed rightFormed (by rwa [map_fields_plain, map_fields_plain])
  cases left
  cases right
  simp only [LocalThreadOverlayV4.mk.injEq]
  exact ⟨option_string_injective _ _ provider, option_string_injective _ _ workspace, option_string_injective _ _ rollout,
    array_sorted_injective Value.string (fun _ _ equal => Value.string.inj equal) _ _ hints, locals⟩

theorem overlay_text_injective (lib : Primitives) (floats : PrintsFloats lib) (left right : SnapshotOverlayV4)
    (leftFormed : left.Formed) (rightFormed : right.Formed)
    (same : canonicalJson lib left.toValue = canonicalJson lib right.toValue) : left = right := by
  have sorted := (canonical_json_sorted floats _ _ (overlay_printable left leftFormed) (overlay_printable right rightFormed)).mp same
  have fields := (sort_object_cancel _ _ (by rfl) (by simp)).mp sorted
  simp only [sortFields, List.cons.injEq, Prod.mk.injEq, true_and, and_true] at fields
  obtain ⟨schema, normalization, threads⟩ := fields
  have threads := map_sorted_injective LocalThreadOverlayV4.toValue LocalThreadOverlayV4.Formed local_overlay_injective
    left.threads right.threads leftFormed rightFormed threads
  cases left
  cases right
  simp only [SnapshotOverlayV4.mk.injEq]
  exact ⟨small_nat_injective _ _ schema, small_nat_injective _ _ normalization, threads⟩

theorem thread_ref_injective (left right : ThreadRefV4) (same : sortKeys left.toValue = sortKeys right.toValue) : left = right := by
  have fields := (sort_object_cancel _ _ (by rfl) (by simp)).mp same
  simp only [sortFields, List.cons.injEq, Prod.mk.injEq, true_and, and_true] at fields
  cases left
  cases right
  simp only [ThreadRefV4.mk.injEq]
  exact ⟨Value.string.inj fields.1, Value.string.inj fields.2⟩

theorem threads_printable (threads : List ThreadRefV4) : PrintableElements (threads.map ThreadRefV4.toValue) := by
  refine (printable_elements _).mpr fun value member => ?_
  obtain ⟨thread, _, rfl⟩ := List.mem_map.mp member
  exact ⟨trivial, trivial, trivial⟩

theorem snapshot_root_printable (root : SnapshotRootV4) : Printable root.toValue :=
  ⟨trivial, trivial, trivial, trivial, threads_printable root.threads, trivial, trivial, trivial⟩

theorem snapshot_root_text_injective (lib : Primitives) (floats : PrintsFloats lib) (left right : SnapshotRootV4)
    (same : canonicalJson lib left.toValue = canonicalJson lib right.toValue) : left = right := by
  have sorted := (canonical_json_sorted floats _ _ (snapshot_root_printable left) (snapshot_root_printable right)).mp same
  have fields := (sort_object_cancel _ _ (by rfl) (by simp)).mp sorted
  simp only [sortFields, List.cons.injEq, Prod.mk.injEq, true_and, and_true] at fields
  obtain ⟨schema, normalization, id, created, threads, overlay, warnings⟩ := fields
  cases left
  cases right
  simp only [SnapshotRootV4.mk.injEq]
  exact ⟨small_nat_injective _ _ schema, small_nat_injective _ _ normalization, Value.string.inj id, Value.string.inj created,
    array_sorted_injective _ thread_ref_injective _ _ threads, Value.string.inj overlay, nat_injective _ _ warnings⟩

end SessionSync.Storage
