import SessionSync.Storage.Projection
import SessionSync.Storage.Encoding

set_option autoImplicit false

namespace SessionSync.Storage

open SessionSync.Core Checked

theorem threads_row_subset (row : Fields) (field : String × Value) (member : field ∈ threadsRowView row) : field ∈ row := by
  have removed : ∀ (name : String) (fields : Fields), field ∈ removeField name fields → field ∈ fields :=
    fun name fields inside => (List.mem_filter.mp inside).1
  dsimp only [threadsRowView] at member
  split at member <;> split at member <;> split at member <;> first
    | exact member
    | exact removed _ _ member
    | exact removed _ _ (removed _ _ member)
    | exact removed _ _ (removed _ _ (removed _ _ member))

theorem shown_subset (table : String) (row : Fields) (field : String × Value) (member : field ∈ shownColumns table row) :
    field ∈ row := by
  have kept : ∀ inner : Fields, field ∈ (if table = "threads" then threadsRowView inner else inner) → field ∈ inner := by
    intro inner inside
    split at inside
    · exact threads_row_subset inner field inside
    · exact inside
  have shown := (List.mem_filter.mp (kept _ member)).1
  rw [remove_four] at shown
  exact (List.mem_filter.mp shown).1

theorem row_view_printable (table : String) (row : Value) (formed : WellFormed row) : Printable (rowView table row) := by
  cases row with
  | object row =>
      rw [row_view_object]
      refine (printable_fields _).mpr fun field member => ?_
      exact well_formed_printable field.2 ((well_formed_fields_iff row).mp formed.1 field (shown_subset table row field member))
  | null | bool | number | string | array => exact well_formed_printable _ formed

theorem content_view_printable (content : ContentObject) : Printable (contentView content).toValue :=
  ⟨trivial, trivial, trivial, option_printable _ _ fun _ => trivial, trivial⟩

theorem view_printable (thread : ThreadBundle) (formed : RowsFormed thread.relatedRecords.tables) :
    Printable (remoteThreadView thread).toValue := by
  refine ⟨trivial, trivial, trivial, trivial, option_printable _ _ int_printable, option_printable _ _ int_printable, trivial,
    ⟨option_printable _ _ fun _ => trivial, trivial, trivial⟩, content_view_printable _, ⟨?_, trivial⟩, ?_, trivial⟩
  · refine (printable_fields _).mpr fun field member => ?_
    obtain ⟨table, listed, rfl⟩ := List.mem_map.mp member
    have held := Std.ExtTreeMap.mem_toList_iff_getElem?_eq_some.mp listed
    simp only [remoteThreadView, Std.ExtTreeMap.getElem?_map] at held
    obtain ⟨rows, found, shown⟩ := Option.map_eq_some_iff.mp held
    refine (printable_elements _).mpr fun value inside => ?_
    rw [← shown] at inside
    obtain ⟨row, within, rfl⟩ := List.mem_map.mp inside
    exact row_view_printable _ row (formed table.1 rows found row within)
  · refine (printable_elements _).mpr fun value member => ?_
    obtain ⟨content, listed, rfl⟩ := List.mem_map.mp member
    obtain ⟨object, _, rfl⟩ := List.mem_map.mp listed
    exact content_view_printable object

theorem content_view_injective (left right : ContentObject) (same : (contentView left).toValue = (contentView right).toValue) :
    contentView left = contentView right := by
  simp only [ContentObject.toValue, contentView, Option.toList_none, List.map_nil, List.append_nil, Value.object.injEq,
    List.cons.injEq, Prod.mk.injEq, true_and, and_true] at same
  obtain ⟨sha, length, media, path⟩ := same
  have length := nat_injective _ _ length
  have path := option_string_injective _ _ (congrArg sortKeys path)
  simp only [contentView, Value.string.inj sha, length, Value.string.inj media, path]

theorem content_views_injective (left right : List ContentObject)
    (same : (left.map contentView).map ContentObject.toValue = (right.map contentView).map ContentObject.toValue) :
    left.map contentView = right.map contentView := by
  induction left generalizing right with
  | nil => cases right with
    | nil => rfl
    | cons other others => cases same
  | cons content rest ih =>
      cases right with
      | nil => cases same
      | cons other others =>
          obtain ⟨first, tails⟩ := List.cons.inj same
          rw [List.map_cons, List.map_cons, content_view_injective content other first, ih others tails]

theorem tables_value_injective (left right : Std.ExtTreeMap String (List Value))
    (same : left.toList.map (fun table => (table.1, Value.array table.2)) = right.toList.map fun table =>
      (table.1, Value.array table.2)) :
    left = right := by
  refine Std.ExtTreeMap.toList_inj.mp (List.map_injective_iff.mpr ?_ same)
  intro one other equal
  obtain ⟨key, rows⟩ := Prod.mk.inj equal
  exact Prod.ext key (Value.array.inj rows)

theorem view_injective (left right : ThreadBundle) (same : (remoteThreadView left).toValue = (remoteThreadView right).toValue) :
    remoteThreadView left = remoteThreadView right := by
  simp only [ThreadBundle.toValue, WorkspaceRef.toValue, RelatedRecords.toValue, remoteThreadView, Value.object.injEq,
    List.cons.injEq, Prod.mk.injEq, true_and, and_true, List.map_map] at same
  obtain ⟨schema, thread, title, archived, created, updated, workspace, rollout, tables, attachments⟩ := same
  have tables := tables_value_injective _ _ tables
  have contents : left.attachments.map contentView = right.attachments.map contentView := by
    have lists := Value.array.inj attachments
    rw [← List.map_map, ← List.map_map] at lists
    exact content_views_injective _ _ lists
  simp only [remoteThreadView, small_nat_injective _ _ schema, Value.string.inj thread, Value.string.inj title,
    Value.bool.inj archived, option_int_injective _ _ (congrArg sortKeys created),
      option_int_injective _ _ (congrArg sortKeys updated),
    option_string_injective _ _ (congrArg sortKeys workspace), content_view_injective _ _ rollout, tables, contents]

theorem semantic_text_iff (lib : Primitives) (floats : PrintsFloats lib) (left right : ThreadBundle)
    (leftFormed : RowsFormed left.relatedRecords.tables) (rightFormed : RowsFormed right.relatedRecords.tables) :
    toVec lib (remoteThreadView left).toValue = toVec lib (remoteThreadView right).toValue ↔
      remoteThreadView left = remoteThreadView right := by
  constructor
  · exact fun same => view_injective left right
      (write_json_injective floats _ _ (view_printable left leftFormed) (view_printable right rightFormed) same)
  · exact fun same => by rw [same]

variable (reread : UInt64 → UInt64)

-- A descriptor as serde_json gives it back.
def SemanticThreadDescriptorV4.readBack (descriptor : SemanticThreadDescriptorV4) : SemanticThreadDescriptorV4 :=
  { descriptor with relatedRecords := descriptor.relatedRecords.map fun _ rows => rows.map (rereadValue reread) }

-- A thread whose descriptor says all that its semantic hash covers.
structure ThreadKept (bundle : ThreadBundle) (content : ContentRefV4) : Prop where
  schema : bundle.schemaVersion = localSnapshotSchemaVersion
  mediaType : content.mediaType = bundle.rollout.mediaType
  logicalPath : content.logicalPath = bundle.rollout.logicalPath
  timeline : bundle.relatedRecords.tables[timelineTable]? = none
  rows : ∀ (table : String) (rows : List Value), bundle.relatedRecords.tables[table]? = some rows →
    ∀ row ∈ rows, PlainRow reread table row

variable {reread}

theorem stored_tables (bundle : ThreadBundle) (table : String) :
    ((projectRelatedRecordsV4 bundle.relatedRecords).map fun _ rows => rows.map (rereadValue reread))[table]? =
      if table = timelineTable then none else bundle.relatedRecords.tables[table]?.map (List.map (storedValue reread)) := by
  rw [Std.ExtTreeMap.getElem?_map, projected_table]
  split
  · rfl
  · rw [Option.map_map]
    refine congrFun (congrArg _ (funext fun rows => ?_)) _
    exact List.map_map

theorem stored_views (bundle : ThreadBundle) :
    (((projectRelatedRecordsV4 bundle.relatedRecords).map fun _ rows => rows.map (rereadValue reread)).map
        fun table rows => rows.map (rowView table)) = bundle.relatedRecords.tables.map (fun table rows => rows.map (rowView table)) ↔
      bundle.relatedRecords.tables[timelineTable]? = none ∧
        ∀ (table : String) (rows : List Value), bundle.relatedRecords.tables[table]? = some rows →
          ∀ row ∈ rows, PlainRow reread table row := by
  constructor
  · intro same
    have looked : ∀ table : String, _ = _ := fun table =>
      congrArg (fun tables : Std.ExtTreeMap String (List Value) => tables[table]?) same
    simp only [Std.ExtTreeMap.getElem?_map (f := fun table rows => List.map (rowView table) rows), stored_tables] at looked
    have timeline : bundle.relatedRecords.tables[timelineTable]? = none := by
      have missing := looked timelineTable
      rw [if_pos rfl, Option.map_none, eq_comm, Option.map_eq_none_iff] at missing
      exact missing
    refine ⟨timeline, fun table rows held => ?_⟩
    have other : table ≠ timelineTable := by
      rintro rfl
      rw [timeline] at held
      cases held
    have shown := looked table
    rw [if_neg other, held, Option.map_some, Option.map_some, Option.map_some, Option.some.injEq] at shown
    exact (rows_view_stored table rows).mp shown
  · rintro ⟨timeline, plain⟩
    refine Std.ExtTreeMap.ext_getElem? fun table => ?_
    simp only [Std.ExtTreeMap.getElem?_map (f := fun table rows => List.map (rowView table) rows), stored_tables]
    by_cases named : table = timelineTable
    · rw [if_pos named, named, timeline]
    · rw [if_neg named]
      cases held : bundle.relatedRecords.tables[table]? with
      | none => rfl
      | some rows =>
          rw [Option.map_some, Option.map_some, Option.map_some]
          exact congrArg some ((rows_view_stored table rows).mpr (plain table rows held))

theorem loaded_view_iff (bundle : ThreadBundle) (content : ContentRefV4) (descriptor : SemanticThreadDescriptorV4)
    (overlay : Option LocalThreadOverlayV4) (built : SemanticThreadDescriptorV4.fromBundle bundle content = .ok descriptor) :
    remoteThreadView ((descriptor.readBack reread).intoBundle overlay) = remoteThreadView bundle ↔
      ThreadKept reread bundle content := by
  simp only [SemanticThreadDescriptorV4.fromBundle, bind_ok, ensure_ok, pure_ok] at built
  obtain ⟨_, ⟨sha, length⟩, contents, read, rfl⟩ := built
  have attachments : (contents.map contentObjectFromRefV4).map contentView = bundle.attachments.map contentView := by
    rw [content_refs_back bundle.attachments contents read, List.map_map]
    rfl
  simp only [remoteThreadView, SemanticThreadDescriptorV4.intoBundle, SemanticThreadDescriptorV4.readBack, ThreadBundle.mk.injEq,
    contentView, contentObjectFromRefV4, ContentObject.mk.injEq, RelatedRecords.mk.injEq, stored_views, sha, length,
      true_and, and_true]
  constructor
  · rintro ⟨schema, ⟨media, path⟩, ⟨timeline, plain⟩, _⟩
    exact ⟨schema.symm, media, path, timeline, plain⟩
  · rintro ⟨schema, media, path, timeline, plain⟩
    exact ⟨schema.symm, ⟨media, path⟩, ⟨timeline, plain⟩, attachments⟩

end SessionSync.Storage
