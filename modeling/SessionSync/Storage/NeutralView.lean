import SessionSync.Storage.StoredView

set_option autoImplicit false

namespace SessionSync.Storage

open SessionSync.Core

def integerColumn (row : Fields) (name : String) : Option Int := (fieldOf row name).bind Value.asI64

-- The columns of a "threads" row that only repeat what an older schema says without them.
def DefaultColumn (row : Fields) (name : String) : Prop :=
  (name = "recency_at" ∧
    (integerColumn row "recency_at" = some 0 ∨ integerColumn row "recency_at" = integerColumn row "updated_at")) ∨
  (name = "recency_at_ms" ∧
    (integerColumn row "recency_at_ms" = some 0 ∨
      integerColumn row "recency_at_ms" = (integerColumn row "updated_at_ms").or
        ((integerColumn row "updated_at").bind checkedMillis))) ∨
  (name = "history_mode" ∧ (fieldOf row "history_mode").bind Value.asStr = some "legacy")

instance (row : Fields) (name : String) : Decidable (DefaultColumn row name) := inferInstanceAs (Decidable (_ ∨ _ ∨ _))

def hiddenColumns : List String := ["rollout_path", "codex_home", "model_provider", "cwd"]

-- A column that says nothing about the conversation.
def NeutralColumn (table : String) (row : Fields) (name : String) : Prop :=
  name ∈ hiddenColumns ∨ fieldOf row name = none ∨ fieldOf row name = some .null ∨ (table = "threads" ∧ DefaultColumn row name)

instance (table : String) (row : Fields) (name : String) : Decidable (NeutralColumn table row name) :=
  decidable_of_iff
    (name ∈ hiddenColumns ∨ fieldOf row name = none ∨ (fieldOf row name).any Value.isNull = true ∨
      (table = "threads" ∧ DefaultColumn row name)) (by
      have null : ∀ value : Value, value.isNull = true ↔ value = .null := fun value => by cases value <;> simp [Value.isNull]
      cases held : fieldOf row name <;> simp [NeutralColumn, held, null])

def SameRow (table : String) : Value → Value → Prop
  | .object left, .object right =>
      ∀ name, fieldOf left name = fieldOf right name ∨ (NeutralColumn table left name ∧ NeutralColumn table right name)
  | left, right => left = right

structure SameContent (left right : ContentObject) : Prop where
  sha256 : left.sha256 = right.sha256
  byteLength : left.byteLength = right.byteLength
  mediaType : left.mediaType = right.mediaType
  logicalPath : left.logicalPath = right.logicalPath

-- Two bundles that differ in nothing but what belongs to a machine and what a schema adds.
structure SameThread (left right : ThreadBundle) : Prop where
  schemaVersion : left.schemaVersion = right.schemaVersion
  threadId : left.threadId = right.threadId
  title : left.title = right.title
  archived : left.archived = right.archived
  createdAtMs : left.createdAtMs = right.createdAtMs
  updatedAtMs : left.updatedAtMs = right.updatedAtMs
  logicalId : left.workspace.logicalId = right.workspace.logicalId
  rollout : SameContent left.rollout right.rollout
  attachments : List.Forall₂ SameContent left.attachments right.attachments
  tables : ∀ table, Option.Rel (List.Forall₂ (SameRow table)) left.relatedRecords.tables[table]? right.relatedRecords.tables[table]?

section Rows

theorem column_removed (name : String) (row : Fields) (other : String) :
    fieldOf (removeField name row) other = if name = other then none else fieldOf row other := by
  have kept := field_filter (fun key => decide (key ≠ name)) row other
  rw [removeField, kept]
  by_cases same : name = other
  · rw [if_pos same, if_neg (by simp [same])]
  · rw [if_neg same, if_pos (by simp [Ne.symm same])]

theorem filter_true_branch (condition : Prop) [Decidable condition] (name : String) (row : Fields) :
    (if condition then removeField name row else row) = row.filter fun field => !decide (field.1 = name ∧ condition) := by
  by_cases holds : condition
  · simp [holds, removeField]
  · simp [holds]

-- The conditions that are tested later only look at columns that are still there.
theorem threads_row_filter (row : Fields) : threadsRowView row = row.filter fun field => !decide (DefaultColumn row field.1) := by
  have mode : ∀ (first second : Prop) [Decidable first] [Decidable second],
      fieldOf (if second then removeField "recency_at_ms" (if first then removeField "recency_at" row else row)
        else if first then removeField "recency_at" row else row) "history_mode" = fieldOf row "history_mode" := by
    intro first second _ _
    split <;> split <;> simp [column_removed]
  unfold threadsRowView
  simp only [mode]
  rw [filter_true_branch, filter_true_branch, filter_true_branch, List.filter_filter, List.filter_filter]
  refine List.filter_congr fun field _ => ?_
  rw [Bool.eq_iff_iff]
  simp only [Bool.and_eq_true, Bool.not_eq_true', decide_eq_false_iff_not]
  simp only [DefaultColumn, integerColumn, not_or]
  exact ⟨fun kept => ⟨kept.2, kept.1.2, kept.1.1⟩, fun kept => ⟨⟨kept.2.2, kept.2.1⟩, kept.1⟩⟩

theorem default_kept (row : Fields) (name : String) (kept : ¬ DefaultColumn row name) :
    ¬ DefaultColumn (threadsRowView row) name := by
  have looked : ∀ other, ¬ DefaultColumn row other → fieldOf (threadsRowView row) other = fieldOf row other := by
    intro other stays
    have filtered := field_filter (fun key => !decide (DefaultColumn row key)) row other
    rw [threads_row_filter, filtered, if_pos (by simp [stays])]
  have updated := looked "updated_at" (by simp [DefaultColumn])
  have updatedMs := looked "updated_at_ms" (by simp [DefaultColumn])
  have own := looked name kept
  intro again
  refine kept ?_
  unfold DefaultColumn integerColumn at again ⊢
  rw [updated, updatedMs] at again
  rcases again with ⟨rfl, held⟩ | ⟨rfl, held⟩ | ⟨rfl, held⟩ <;> rw [own] at held <;> simp [held]

theorem threads_row_again (row : Fields) : threadsRowView (threadsRowView row) = threadsRowView row := by
  rw [threads_row_filter (threadsRowView row), List.filter_eq_self]
  intro field member
  rw [threads_row_filter] at member
  have kept := (List.mem_filter.mp member).2
  simp only [Bool.not_eq_true', decide_eq_false_iff_not] at kept ⊢
  exact default_kept row field.1 kept

theorem remove_machine (row : Fields) :
    removeField "cwd" (removeField "model_provider" (removeField "codex_home" (removeField "rollout_path" row))) =
      row.filter fun field => decide (field.1 ∉ hiddenColumns) := by
  simp only [removeField, List.filter_filter]
  refine List.filter_congr fun field _ => ?_
  simp only [hiddenColumns, List.mem_cons, List.not_mem_nil, or_false, not_or, Bool.decide_and, ne_eq]
  ac_rfl

theorem shown_filter (table : String) (row : Fields) :
    shownColumns table row =
      let present := (row.filter fun field => decide (field.1 ∉ hiddenColumns)).filter fun field => !field.2.isNull
      if table = "threads" then threadsRowView present else present := by
  rw [shownColumns, remove_machine]

-- The view shows nothing new on a row that it has been through.
theorem shown_again (table : String) (row : Fields) : shownColumns table (shownColumns table row) = shownColumns table row := by
  have clean : ∀ field ∈ shownColumns table row, field.1 ∉ hiddenColumns ∧ field.2.isNull = false := by
    intro field member
    rw [shown_filter] at member
    have present : field ∈ (row.filter fun field => decide (field.1 ∉ hiddenColumns)).filter fun field => !field.2.isNull := by
      dsimp only at member
      split at member
      · exact threads_row_subset _ field member
      · exact member
    obtain ⟨neutral, filled⟩ := List.mem_filter.mp present
    exact ⟨of_decide_eq_true (List.mem_filter.mp neutral).2, by simpa using filled⟩
  have machine : (shownColumns table row).filter (fun field => decide (field.1 ∉ hiddenColumns)) = shownColumns table row :=
    List.filter_eq_self.mpr fun field member => decide_eq_true (clean field member).1
  have filled : (shownColumns table row).filter (fun field => !field.2.isNull) = shownColumns table row :=
    List.filter_eq_self.mpr fun field member => by simp [(clean field member).2]
  rw [shown_filter table (shownColumns table row), machine, filled]
  by_cases threads : table = "threads"
  · rw [shown_filter]
    simp only [if_pos threads, threads_row_again]
  · simp only [if_neg threads]

theorem row_view_again (table : String) (row : Value) : rowView table (rowView table row) = rowView table row := by
  cases row with
  | object row => rw [row_view_object, row_view_object, shown_again]
  | null | bool | number | string | array => rfl

theorem field_filled (row : Fields) (sorted : KeysSorted row) (name : String) :
    fieldOf (row.filter fun field => !field.2.isNull) name = (fieldOf row name).filter fun value => !value.isNull := by
  induction row with
  | nil => rfl
  | cons head rest ih =>
      obtain ⟨key, value⟩ := head
      obtain ⟨above, tail⟩ := List.pairwise_cons.mp sorted
      rw [field_cons]
      by_cases null : value.isNull = true
      · rw [List.filter_cons_of_neg (by simp [null]), ih tail]
        by_cases same : key = name
        · subst same
          rw [if_pos rfl, field_above key rest above, Option.filter_some_neg (by simp [null])]
          rfl
        · rw [if_neg same]
      · rw [List.filter_cons_of_pos (by simp [null]), field_cons, ih tail]
        by_cases same : key = name
        · rw [if_pos same, if_pos same, Option.filter_some_pos (by simp [null])]
        · rw [if_neg same, if_neg same]

theorem column_filled {α : Type} (read : Value → Option α) (blank : read .null = none) (column : Option Value) :
    (column.filter fun value => !value.isNull).bind read = column.bind read := by
  cases column with
  | none => rfl
  | some value =>
      by_cases null : value = .null
      · subst null
        exact blank.symm
      · rw [Option.filter_some_pos (by cases value <;> simp_all [Value.isNull])]

theorem default_congr (left right : Fields)
    (integers : ∀ name, name ∉ hiddenColumns → integerColumn left name = integerColumn right name)
    (mode : (fieldOf left "history_mode").bind Value.asStr = (fieldOf right "history_mode").bind Value.asStr) (name : String) :
    DefaultColumn left name ↔ DefaultColumn right name := by
  have recency := integers "recency_at" (by decide)
  have recencyMs := integers "recency_at_ms" (by decide)
  have updated := integers "updated_at" (by decide)
  have updatedMs := integers "updated_at_ms" (by decide)
  rw [DefaultColumn, DefaultColumn, recency, recencyMs, updated, updatedMs, mode]

theorem threads_row_column (row : Fields) (name : String) :
    fieldOf (threadsRowView row) name = if DefaultColumn row name then none else fieldOf row name := by
  have filtered := field_filter (fun key => !decide (DefaultColumn row key)) row name
  rw [threads_row_filter, filtered]
  by_cases default : DefaultColumn row name
  · rw [if_pos default, if_neg (by simp [default])]
  · rw [if_neg default, if_pos (by simp [default])]

-- Column by column: the view shows what is in the row and is not neutral.
theorem shown_column (table : String) (row : Fields) (sorted : KeysSorted row) (name : String) :
    fieldOf (shownColumns table row) name = if NeutralColumn table row name then none else fieldOf row name := by
  let present := (row.filter fun field => decide (field.1 ∉ hiddenColumns)).filter fun field => !field.2.isNull
  have held : ∀ key, fieldOf present key =
    if key ∈ hiddenColumns then none else (fieldOf row key).filter fun value => !value.isNull := by
    intro key
    have machine := field_filter (fun key => decide (key ∉ hiddenColumns)) row key
    rw [field_filled _ (filter_sorted _ row sorted), machine]
    by_cases known : key ∈ hiddenColumns
    · simp [known]
    · simp [known]
  have integers : ∀ key, key ∉ hiddenColumns → integerColumn present key = integerColumn row key := by
    intro key other
    rw [integerColumn, held, if_neg other, column_filled _ rfl]
    rfl
  have mode : (fieldOf present "history_mode").bind Value.asStr = (fieldOf row "history_mode").bind Value.asStr := by
    rw [held, if_neg (by decide), column_filled _ rfl]
  have defaults : DefaultColumn present name ↔ DefaultColumn row name := default_congr present row integers mode name
  have shown : fieldOf (shownColumns table row) name =
    if table = "threads" ∧ DefaultColumn row name then none else fieldOf present name := by
    rw [shown_filter]
    by_cases threads : table = "threads"
    · simp only [threads, true_and, ← defaults]
      exact threads_row_column present name
    · simp only [threads, false_and, if_false]
      rfl
  rw [shown, held]
  by_cases neutral : NeutralColumn table row name
  · rw [if_pos neutral]
    rcases neutral with machine | absent | null | default
    · simp [machine]
    · simp [absent]
    · simp [null, Value.isNull]
    · rw [if_pos default]
  · rw [if_neg neutral]
    simp only [NeutralColumn, not_or] at neutral
    obtain ⟨machine, absent, null, default⟩ := neutral
    rw [if_neg default, if_neg machine]
    obtain ⟨value, column⟩ := Option.ne_none_iff_exists'.mp absent
    rw [column, Option.some.injEq] at null
    rw [column, Option.filter_some_pos (by cases value <;> simp_all [Value.isNull])]

theorem shown_sorted (table : String) (row : Fields) (sorted : KeysSorted row) : KeysSorted (shownColumns table row) := by
  have present :=
    filter_sorted (fun field => !field.2.isNull) _ (filter_sorted (fun field => decide (field.1 ∉ hiddenColumns)) row sorted)
  rw [shown_filter]
  by_cases threads : table = "threads"
  · simp only [if_pos threads, threads_row_filter]
    exact filter_sorted _ _ present
  · simp only [if_neg threads]
    exact present

-- The columns that a default repeats are never defaults themselves, so they agree.
theorem updated_congr (table : String) (left right : Fields)
    (same : ∀ name, fieldOf left name = fieldOf right name ∨ (NeutralColumn table left name ∧ NeutralColumn table right name))
    (name : String) (machine : name ∉ hiddenColumns) (plain : ∀ row, ¬ DefaultColumn row name) :
    integerColumn left name = integerColumn right name := by
  have blank : ∀ row, NeutralColumn table row name → integerColumn row name = none := by
    rintro row (known | absent | null | default)
    · exact absurd known machine
    · rw [integerColumn, absent]
      rfl
    · rw [integerColumn, null]
      rfl
    · exact absurd default.2 (plain row)
  rcases same name with equal | ⟨neutral, other⟩
  · rw [integerColumn, equal]
    rfl
  · rw [blank left neutral, blank right other]

theorem neutral_congr (table : String) (left right : Fields)
    (same : ∀ name, fieldOf left name = fieldOf right name ∨ (NeutralColumn table left name ∧ NeutralColumn table right name))
    (name : String) (equal : fieldOf left name = fieldOf right name) :
    NeutralColumn table left name ↔ NeutralColumn table right name := by
  have updated := updated_congr table left right same "updated_at" (by decide) (by simp [DefaultColumn])
  have updatedMs := updated_congr table left right same "updated_at_ms" (by decide) (by simp [DefaultColumn])
  have defaults : DefaultColumn left name ↔ DefaultColumn right name := by
    unfold DefaultColumn
    rw [updated, updatedMs]
    refine or_congr (and_congr_right fun own => ?_) (or_congr (and_congr_right fun own => ?_) (and_congr_right fun own => ?_))
    · subst own
      rw [integerColumn, equal]
      rfl
    · subst own
      rw [integerColumn, equal]
      rfl
    · subst own
      rw [equal]
  rw [NeutralColumn, NeutralColumn, equal, defaults]

theorem shown_iff (table : String) (left right : Fields) (leftSorted : KeysSorted left) (rightSorted : KeysSorted right) :
    shownColumns table left = shownColumns table right ↔
      ∀ name, fieldOf left name = fieldOf right name ∨ (NeutralColumn table left name ∧ NeutralColumn table right name) := by
  have columns := shown_column table left leftSorted
  have others := shown_column table right rightSorted
  constructor
  · intro same name
    have equal : fieldOf (shownColumns table left) name = fieldOf (shownColumns table right) name := by rw [same]
    rw [columns, others] at equal
    by_cases neutral : NeutralColumn table left name <;> by_cases other : NeutralColumn table right name
    · exact .inr ⟨neutral, other⟩
    · rw [if_pos neutral, if_neg other] at equal
      exact absurd (.inr (.inl equal.symm)) other
    · rw [if_neg neutral, if_pos other] at equal
      exact absurd (.inr (.inl equal)) neutral
    · rw [if_neg neutral, if_neg other] at equal
      exact .inl equal
  · intro same
    refine fields_ext _ _ (shown_sorted table left leftSorted) (shown_sorted table right rightSorted) fun name => ?_
    rw [columns, others]
    rcases same name with equal | ⟨neutral, other⟩
    · have neutral := neutral_congr table left right same name equal
      by_cases own : NeutralColumn table left name
      · rw [if_pos own, if_pos (neutral.mp own)]
      · rw [if_neg own, if_neg (mt neutral.mpr own), equal]
    · rw [if_pos neutral, if_pos other]

theorem row_view_iff (table : String) (left right : Value) (leftFormed : WellFormed left) (rightFormed : WellFormed right) :
    rowView table left = rowView table right ↔ SameRow table left right := by
  cases left with
  | object left =>
      cases right with
      | object right =>
          rw [row_view_object, row_view_object, Value.object.injEq]
          exact shown_iff table left right leftFormed.2 rightFormed.2
      | null | bool | number | string | array => exact iff_of_false nofun nofun
  | null | bool | number | string | array =>
      cases right with
      | object right => exact iff_of_false nofun nofun
      | null | bool | number | string | array => exact Iff.rfl

theorem rows_view_iff (table : String) (left right : List Value) (leftFormed : ∀ row ∈ left, WellFormed row)
    (rightFormed : ∀ row ∈ right, WellFormed row) :
    left.map (rowView table) = right.map (rowView table) ↔ List.Forall₂ (SameRow table) left right := by
  induction left generalizing right with
  | nil => cases right <;> simp
  | cons row rest ih =>
      cases right with
      | nil => simp
      | cons other others =>
          obtain ⟨rowFormed, restFormed⟩ := List.forall_mem_cons.mp leftFormed
          obtain ⟨otherFormed, othersFormed⟩ := List.forall_mem_cons.mp rightFormed
          rw [List.map_cons, List.map_cons, List.cons.injEq, row_view_iff table row other rowFormed otherFormed,
            ih others restFormed othersFormed, List.forall₂_cons]

end Rows

section Threads

theorem content_view_iff (left right : ContentObject) : contentView left = contentView right ↔ SameContent left right := by
  simp only [contentView, ContentObject.mk.injEq, and_true]
  constructor
  · rintro ⟨sha, length, media, path⟩
    exact ⟨sha, length, media, path⟩
  · intro same
    exact ⟨same.sha256, same.byteLength, same.mediaType, same.logicalPath⟩

theorem attachments_view_iff (left right : List ContentObject) :
    left.map contentView = right.map contentView ↔ List.Forall₂ SameContent left right := by
  induction left generalizing right with
  | nil => cases right <;> simp
  | cons content rest ih =>
      cases right with
      | nil => simp
      | cons other others => rw [List.map_cons, List.map_cons, List.cons.injEq, content_view_iff, ih, List.forall₂_cons]

theorem tables_view_iff (left right : Std.ExtTreeMap String (List Value)) (leftFormed : RowsFormed left)
    (rightFormed : RowsFormed right) :
    (left.map fun table rows => rows.map (rowView table)) = (right.map fun table rows => rows.map (rowView table)) ↔
      ∀ table, Option.Rel (List.Forall₂ (SameRow table)) left[table]? right[table]? := by
  have each : ∀ table, (left[table]?.map fun rows => rows.map (rowView table)) =
    (right[table]?.map fun rows => rows.map (rowView table)) ↔
      Option.Rel (List.Forall₂ (SameRow table)) left[table]? right[table]? := by
    intro table
    cases one : left[table]? with
    | none => cases right[table]? <;> simp
    | some rows =>
        cases other : right[table]? with
        | none => simp
        | some others =>
            rw [Option.map_some, Option.map_some, Option.some.injEq, Option.rel_some_some,
              rows_view_iff table rows others (leftFormed table rows one) (rightFormed table others other)]
  constructor
  · intro same table
    have looked := congrArg (fun tables => tables[table]?) same
    simp only [Std.ExtTreeMap.getElem?_map] at looked
    exact (each table).mp looked
  · intro same
    refine Std.ExtTreeMap.ext_getElem? fun table => ?_
    rw [Std.ExtTreeMap.getElem?_map, Std.ExtTreeMap.getElem?_map]
    exact (each table).mpr (same table)

-- The view keeps exactly what the relation compares.
theorem thread_view_iff (left right : ThreadBundle) (leftFormed : RowsFormed left.relatedRecords.tables)
    (rightFormed : RowsFormed right.relatedRecords.tables) : remoteThreadView left = remoteThreadView right ↔
      SameThread left right := by
  simp only [remoteThreadView, ThreadBundle.mk.injEq, WorkspaceRef.mk.injEq, RelatedRecords.mk.injEq, content_view_iff,
    attachments_view_iff, tables_view_iff _ _ leftFormed rightFormed, true_and, and_true]
  constructor
  · rintro ⟨schema, thread, title, archived, created, updated, workspace, rollout, tables, attachments⟩
    exact ⟨schema, thread, title, archived, created, updated, workspace, rollout, attachments, tables⟩
  · intro same
    exact ⟨same.schemaVersion, same.threadId, same.title, same.archived, same.createdAtMs, same.updatedAtMs, same.logicalId,
      same.rollout, same.tables, same.attachments⟩

theorem content_view_again (content : ContentObject) : contentView (contentView content) = contentView content := rfl

theorem thread_view_again (thread : ThreadBundle) : remoteThreadView (remoteThreadView thread) = remoteThreadView thread := by
  have tables : ((thread.relatedRecords.tables.map fun table rows => rows.map (rowView table)).map fun table rows =>
    rows.map (rowView table)) =
      thread.relatedRecords.tables.map fun table rows => rows.map (rowView table) := by
    refine Std.ExtTreeMap.ext_getElem? fun table => ?_
    simp only [Std.ExtTreeMap.getElem?_map, Option.map_map]
    refine congrArg (fun view => thread.relatedRecords.tables[table]?.map view) (funext fun rows => ?_)
    simp only [Function.comp_apply, List.map_map]
    exact List.map_congr_left fun row _ => row_view_again table row
  have attachments : (thread.attachments.map contentView).map contentView = thread.attachments.map contentView := by
    rw [List.map_map]
    exact List.map_congr_left fun content _ => content_view_again content
  simp only [remoteThreadView, tables, attachments, content_view_again]

theorem semantic_view_projection (lib : Primitives) :
    (∀ thread, remoteThreadView (remoteThreadView thread) = remoteThreadView thread ∧
      semanticThreadHash lib (remoteThreadView thread) = semanticThreadHash lib thread) ∧
    ∀ left right : ThreadBundle, RowsFormed left.relatedRecords.tables → RowsFormed right.relatedRecords.tables →
      SameThread left right → semanticThreadHash lib left = semanticThreadHash lib right := by
  refine ⟨fun thread => ⟨thread_view_again thread, ?_⟩, fun left right leftFormed rightFormed same => ?_⟩
  · rw [semanticThreadHash, thread_view_again, semanticThreadHash]
  · rw [semanticThreadHash, (thread_view_iff left right leftFormed rightFormed).mpr same, semanticThreadHash]

end Threads

namespace NeutralSample

def olderRow : Fields := [("cwd", .string "/home/one"), ("id", .string "thread"), ("updated_at", .number (.posInt 7))]

-- The row of a newer schema, on another machine.
def newerRow : Fields :=
  [("history_mode", .string "legacy"), ("id", .string "thread"), ("name", .null), ("recency_at", .number (.posInt 7)),
    ("recency_at_ms", .number (.posInt 7000)), ("updated_at", .number (.posInt 7))]

def bundle (provider : String) (row : Fields) : ThreadBundle :=
  { schemaVersion := 1, threadId := "thread", title := "Thread", archived := false, createdAtMs := none, updatedAtMs := none
    modelProvider := some provider
    workspace := { logicalId := none, sourcePath := none }
    rollout :=
      { sha256 := "sha256:0", byteLength := 1, mediaType := "application/x-ndjson", logicalPath := none, sourcePath := some provider,
        storage := none }
    relatedRecords :=
      { sourceDatabase := some provider, tables := (∅ : Std.ExtTreeMap String (List Value)).insert "threads" [.object row] }
    attachments := [] }

theorem bundle_formed (provider : String) (row : Fields) (formed : WellFormed (.object row)) :
    RowsFormed (bundle provider row).relatedRecords.tables := by
  intro table rows held value member
  change ((∅ : Std.ExtTreeMap String (List Value)).insert "threads" [.object row])[table]? = _ at held
  rw [Keyed.lookup_insert] at held
  split at held
  · cases held
    rw [List.mem_singleton.mp member]
    exact formed
  · simp at held

theorem older_formed : WellFormed (.object olderRow) :=
  ⟨⟨trivial, trivial, trivial, trivial⟩, by
    simp only [olderRow, List.pairwise_cons, List.mem_cons, List.not_mem_nil, forall_eq_or_imp, forall_eq, or_false,
      false_imp_iff, implies_true, List.Pairwise.nil, and_true, String.reduceLT]⟩

theorem newer_formed : WellFormed (.object newerRow) :=
  ⟨⟨trivial, trivial, trivial, trivial, trivial, trivial, trivial⟩, by
    simp only [newerRow, List.pairwise_cons, List.mem_cons, List.not_mem_nil, forall_eq_or_imp, forall_eq, or_false,
      false_imp_iff, implies_true, List.Pairwise.nil, and_true, String.reduceLT]⟩

theorem rows_same : SameRow "threads" (.object olderRow) (.object newerRow) :=
  (row_view_iff "threads" _ _ older_formed newer_formed).mp rfl

theorem bundles_same : SameThread (bundle "one" olderRow) (bundle "other" newerRow) where
  schemaVersion := rfl
  threadId := rfl
  title := rfl
  archived := rfl
  createdAtMs := rfl
  updatedAtMs := rfl
  logicalId := rfl
  rollout := ⟨rfl, rfl, rfl, rfl⟩
  attachments := .nil
  tables := by
    intro table
    change Option.Rel _ ((∅ : Std.ExtTreeMap String (List Value)).insert "threads" [.object olderRow])[table]?
      ((∅ : Std.ExtTreeMap String (List Value)).insert "threads" [.object newerRow])[table]?
    rw [Keyed.lookup_insert, Keyed.lookup_insert]
    by_cases threads : table = "threads"
    · rw [if_pos threads, if_pos threads, threads]
      exact .some (.cons rows_same .nil)
    · rw [if_neg threads, if_neg threads]
      simp

theorem hashes_same (lib : Primitives) :
    semanticThreadHash lib (bundle "one" olderRow) = semanticThreadHash lib (bundle "other" newerRow) :=
  (semantic_view_projection lib).2 _ _ (bundle_formed "one" olderRow older_formed)
    (bundle_formed "other" newerRow newer_formed) bundles_same

end NeutralSample

end SessionSync.Storage
