import SessionSync.Rollout.SessionMeta
import SessionSync.Lib.Checked

set_option autoImplicit false

namespace SessionSync.Provider

open SessionSync.Core Checked Rollout

-- A row has no value where its table has no column.
@[ext]
structure ProviderTable where
  name : String
  columns : List String
  rows : List Fields
  shaped : ∀ row ∈ rows, ∀ key, key ∉ columns → fieldOf row key = none

-- Its tables but for local_thread_catalog_metadata, of which a run reads and writes only the
-- revision under the id 1; both columns of that table are integers.
structure ProviderDatabase where
  path : String
  tables : List ProviderTable
  revision : Option Int

-- LIKE 'sqlite_%': letters in either case, and the underscore stands for any character.
def isInternal (name : String) : Bool :=
  decide ((name.toList.take 6).map Char.toLower = "sqlite".toList) && decide (6 < name.toList.length)

def ProviderTable.named (table : ProviderTable) : Bool := "model_provider" ∈ table.columns

def ProviderTable.isProvider (table : ProviderTable) : Bool := !isInternal table.name && table.named

def columnProvider (row : Fields) : Option String := (fieldOf row "model_provider").bind Value.asStr

section Update

variable (provider : String)

def outdated (row : Fields) : Bool := columnProvider row ≠ some provider

def countRows (table : ProviderTable) : Nat := table.rows.countP (outdated provider)

def countDatabase (database : ProviderDatabase) : Nat :=
  ((database.tables.filter ProviderTable.isProvider).map (countRows provider)).sum

def countDatabaseRows (databases : List ProviderDatabase) : Nat := (databases.map (countDatabase provider)).sum

def updateRow (row : Fields) : Fields := if outdated provider row then insertField "model_provider" (.string provider) row else row

theorem update_row_shape (columns : List String) (named : "model_provider" ∈ columns) (rows : List Fields)
    (shaped : ∀ row ∈ rows, ∀ key, key ∉ columns → fieldOf row key = none) :
    ∀ row ∈ rows.map (updateRow provider), ∀ key, key ∉ columns → fieldOf row key = none := by
  rw [List.forall_mem_map]
  intro row member key absent
  have other : "model_provider" ≠ key := fun same => absent (same ▸ named)
  unfold updateRow
  split
  · rw [field_insert, if_neg other]
    exact shaped row member key absent
  · exact shaped row member key absent

def updateTable (table : ProviderTable) : ProviderTable :=
  if selected : table.isProvider = true then
    { table with
      rows := table.rows.map (updateRow provider)
      shaped := update_row_shape provider table.columns
        (by simp_all [ProviderTable.isProvider, ProviderTable.named]) table.rows table.shaped }
  else table

-- One transaction.
def updateDatabase (database : ProviderDatabase) : ProviderDatabase :=
  { database with tables := database.tables.map (updateTable provider) }

end Update

section Forget

def isLocal (row : Fields) : Bool := (fieldOf row "host_id").bind Value.asStr = some "local"

-- The third column is reset where the table has it.
def resetFields (columns : List String) : Fields :=
  [("watermark_updated_at", .null), ("initial_build_complete", .int 0), ("last_full_reconciled_at", .null)].filter
    fun field => field.1 ∈ columns

def resetRow (columns : List String) (row : Fields) : Fields :=
  if isLocal row then (resetFields columns).foldl (fun row field => insertField field.1 field.2 row) row else row

theorem inserted_shape (columns : List String) (fields row : Fields) (inside : ∀ field ∈ fields, field.1 ∈ columns) (key : String)
    (absent : key ∉ columns) (shaped : fieldOf row key = none) :
    fieldOf (fields.foldl (fun row field => insertField field.1 field.2 row) row) key = none := by
  induction fields generalizing row with
  | nil => exact shaped
  | cons field rest ih =>
      obtain ⟨first, later⟩ := List.forall_mem_cons.mp inside
      refine ih _ later ?_
      have other : field.1 ≠ key := fun same => absent (same ▸ first)
      rw [field_insert, if_neg other]
      exact shaped

theorem reset_row_shape (columns : List String) (row : Fields) (key : String) (absent : key ∉ columns)
    (shaped : fieldOf row key = none) : fieldOf (resetRow columns row) key = none := by
  unfold resetRow
  split
  · exact inserted_shape columns _ row (fun field member => by simpa using (List.mem_filter.mp member).2) key absent shaped
  · exact shaped

def forgetTable (table : ProviderTable) : ProviderTable :=
  if table.name = "local_thread_catalog" then
    { table with
      rows := table.rows.filter fun row => !isLocal row
      shaped := fun row member => table.shaped row (List.mem_of_mem_filter member) }
  else if table.name = "local_thread_catalog_sync_state" then
    { table with
      rows := table.rows.map (resetRow table.columns)
      shaped := List.forall_mem_map.mpr fun row member key absent =>
        reset_row_shape table.columns row key absent (table.shaped row member key absent) }
  else table

def ProviderDatabase.forgotten (database : ProviderDatabase) : ProviderDatabase :=
  { database with
    tables := database.tables.map forgetTable
    revision := some (match database.revision with
      | none => 1
      | some revision => revision + 1) }

def columnsOf (database : ProviderDatabase) (name : String) : List String :=
  ((database.tables.find? fun table => table.name = name).map ProviderTable.columns).getD []

-- invalidate_local_thread_catalogs: one transaction for each database.
def forgetDatabase (database : ProviderDatabase) : Except String ProviderDatabase := do
  ["host_id", "watermark_updated_at", "initial_build_complete"].forM fun required =>
    ensure (required ∈ columnsOf database "local_thread_catalog_sync_state")
      ("Codex thread catalog " ++ database.path ++ " is missing required column " ++ required)
  ensure ("host_id" ∈ columnsOf database "local_thread_catalog") "no such column: host_id"
  return database.forgotten

theorem forget_database_ok (database after : ProviderDatabase) (run : forgetDatabase database = .ok after) :
    after = database.forgotten := by
  simp only [forgetDatabase, bind_ok, ensure_ok, pure_ok] at run
  obtain ⟨_, _, _, _, same⟩ := run
  exact same.symm

def forgetAt (path : String) (database : ProviderDatabase) : ProviderDatabase :=
  if database.path = path then database.forgotten else database

-- The catalogs of the given paths, one after the other.
def forgetIn (paths : List String) (database : ProviderDatabase) : ProviderDatabase :=
  paths.foldl (fun database path => forgetAt path database) database

def level (database : ProviderDatabase) : Int := database.revision.getD 0

theorem forget_at_path (path : String) (database : ProviderDatabase) : (forgetAt path database).path = database.path := by
  unfold forgetAt
  split <;> rfl

-- Each forgetting raises the revision.
theorem forgotten_level (database : ProviderDatabase) : level database < level database.forgotten := by
  rw [level, level, ProviderDatabase.forgotten]
  cases database.revision with
  | none => simp
  | some revision => simp

theorem forget_in_level (paths : List String) (database : ProviderDatabase) :
    level database ≤ level (forgetIn paths database) ∧
      (database.path ∈ paths → level database < level (forgetIn paths database)) := by
  induction paths generalizing database with
  | nil => exact ⟨le_refl _, nofun⟩
  | cons path rest ih =>
      have later := ih (forgetAt path database)
      rw [forget_at_path] at later
      rw [show forgetIn (path :: rest) database = forgetIn rest (forgetAt path database) from rfl]
      by_cases here : database.path = path
      · have raised := forgotten_level database
        rw [← show forgetAt path database = database.forgotten from if_pos here] at raised
        exact ⟨le_of_lt (lt_of_lt_of_le raised later.1), fun _ => lt_of_lt_of_le raised later.1⟩
      · rw [show forgetAt path database = database from if_neg here] at later ⊢
        exact ⟨later.1, fun member => later.2 ((List.mem_cons.mp member).resolve_left here)⟩

theorem forget_in_apart (paths : List String) (database : ProviderDatabase) (apart : database.path ∉ paths) :
    forgetIn paths database = database := by
  induction paths with
  | nil => rfl
  | cons path rest ih =>
      obtain ⟨here, later⟩ := not_or.mp (mt List.mem_cons.mpr apart)
      rw [show forgetIn (path :: rest) database = forgetIn rest (forgetAt path database) from rfl, forgetAt, if_neg here]
      exact ih later

end Forget

section Held

variable (provider : String)

-- Every column of the name, in whatever table it is, holds the provider.
def Current (databases : List ProviderDatabase) : Prop :=
  ∀ database ∈ databases, ∀ table ∈ database.tables, table.named = true → ∀ row ∈ table.rows, columnProvider row = some provider

-- A table that the update passes over because of its name.
def HiddenCurrent (databases : List ProviderDatabase) : Prop :=
  ∀ database ∈ databases, ∀ table ∈ database.tables, isInternal table.name = true → table.named = true →
    ∀ row ∈ table.rows, columnProvider row = some provider

end Held

def SameRow (before after : Fields) : Prop := ∀ key, key ≠ "model_provider" → fieldOf after key = fieldOf before key

structure SameTable (before after : ProviderTable) : Prop where
  name : after.name = before.name
  columns : after.columns = before.columns
  rows : List.Forall₂ SameRow before.rows after.rows

structure SameDatabase (before after : ProviderDatabase) : Prop where
  path : after.path = before.path
  tables : List.Forall₂ SameTable before.tables after.tables
  revision : after.revision = before.revision

-- A row of the threads table, where the scan looks for the thread.
def threadRows (database : ProviderDatabase) : List Fields :=
  (database.tables.filter fun table => table.name = "threads" && "id" ∈ table.columns).flatMap ProviderTable.rows

def recordRow (databases : List ProviderDatabase) (threadId : String) : Option Fields :=
  (databases.flatMap threadRows).find? fun row => (fieldOf row "id").bind Value.asStr = some threadId

section Laws

variable (provider : String)

theorem update_row_current (row : Fields) : columnProvider (updateRow provider row) = some provider := by
  unfold updateRow
  by_cases stale : outdated provider row = true
  · rw [if_pos stale, columnProvider, field_insert, if_pos rfl]
    rfl
  · rw [if_neg stale]
    simpa [outdated] using stale

theorem update_row_same (row : Fields) : SameRow row (updateRow provider row) := by
  intro key other
  unfold updateRow
  split
  · rw [field_insert, if_neg fun same => other same.symm]
  · rfl

theorem update_row_kept (row : Fields) (current : columnProvider row = some provider) : updateRow provider row = row := by
  rw [updateRow, if_neg (by simp [outdated, current])]

theorem same_row_refl (row : Fields) : SameRow row row := fun _ _ => rfl

theorem update_table_same (table : ProviderTable) : SameTable table (updateTable provider table) := by
  unfold updateTable
  split
  · refine ⟨rfl, rfl, ?_⟩
    rw [List.forall₂_map_right_iff, List.forall₂_same]
    exact fun row _ => update_row_same provider row
  · exact ⟨rfl, rfl, List.forall₂_same.mpr fun row _ => same_row_refl row⟩

theorem update_database_same (database : ProviderDatabase) : SameDatabase database (updateDatabase provider database) := by
  refine ⟨rfl, ?_, rfl⟩
  rw [updateDatabase, List.forall₂_map_right_iff, List.forall₂_same]
  exact fun table _ => update_table_same provider table

theorem update_table_shape (table : ProviderTable) :
    (updateTable provider table).name = table.name ∧ (updateTable provider table).columns = table.columns := by
  have same := update_table_same provider table
  exact ⟨same.name, same.columns⟩

theorem update_table_provider (table : ProviderTable) : (updateTable provider table).isProvider = table.isProvider := by
  obtain ⟨name, columns⟩ := update_table_shape provider table
  rw [ProviderTable.isProvider, ProviderTable.isProvider, ProviderTable.named, ProviderTable.named, name, columns]

theorem update_table_rows (table : ProviderTable) (selected : table.isProvider = true) (row : Fields)
    (member : row ∈ (updateTable provider table).rows) : columnProvider row = some provider := by
  rw [updateTable, dif_pos selected] at member
  obtain ⟨old, _, rfl⟩ := List.mem_map.mp member
  exact update_row_current provider old

theorem count_rows_zero (table : ProviderTable) : countRows provider table = 0 ↔
    ∀ row ∈ table.rows, columnProvider row = some provider := by
  rw [countRows, List.countP_eq_zero]
  refine forall₂_congr fun row _ => ?_
  simp [outdated]

theorem count_zero_iff (databases : List ProviderDatabase) :
    countDatabaseRows provider databases = 0 ↔
      ∀ database ∈ databases, ∀ table ∈ database.tables, table.isProvider = true →
        ∀ row ∈ table.rows, columnProvider row = some provider := by
  simp only [countDatabaseRows, countDatabase, List.sum_eq_zero_iff_forall_eq_nat, List.forall_mem_map, List.mem_filter, and_imp,
    count_rows_zero]

theorem updated_count (databases : List ProviderDatabase) :
    countDatabaseRows provider (databases.map (updateDatabase provider)) = 0 := by
  rw [count_zero_iff, List.forall_mem_map]
  intro database _
  rw [updateDatabase, List.forall_mem_map]
  intro table _ selected
  rw [update_table_provider] at selected
  exact update_table_rows provider table selected

theorem update_table_kept (table : ProviderTable)
    (current : table.isProvider = true → ∀ row ∈ table.rows, columnProvider row = some provider) :
    updateTable provider table = table := by
  unfold updateTable
  by_cases selected : table.isProvider = true
  · have same : table.rows.map (updateRow provider) = table.rows :=
      (List.map_congr_left fun row member => update_row_kept provider row (current selected row member)).trans (List.map_id _)
    rw [dif_pos selected]
    exact ProviderTable.ext rfl rfl same
  · rw [dif_neg selected]

theorem updated_kept (databases : List ProviderDatabase) (none : countDatabaseRows provider databases = 0) :
    databases.map (updateDatabase provider) = databases := by
  have current := (count_zero_iff provider databases).mp none
  refine (List.map_congr_left fun database member => ?_).trans (List.map_id _)
  have same : database.tables.map (updateTable provider) = database.tables :=
    (List.map_congr_left fun table inside => update_table_kept provider table (current database member table inside)).trans
    (List.map_id _)
  rw [updateDatabase, same]
  rfl

-- The columns after the update, whatever they held before.
theorem updated_current_iff (databases : List ProviderDatabase) :
    Current provider (databases.map (updateDatabase provider)) ↔ HiddenCurrent provider databases := by
  simp only [Current, HiddenCurrent, List.forall_mem_map, updateDatabase]
  refine forall₂_congr fun database _ => forall₂_congr fun table _ => ?_
  obtain ⟨name, columns⟩ := update_table_shape provider table
  rw [ProviderTable.named, columns, ← ProviderTable.named]
  by_cases internal : isInternal table.name = true
  · have skipped : updateTable provider table = table := by
      rw [updateTable, dif_neg (by simp [ProviderTable.isProvider, internal])]
    simp [internal, skipped]
  · refine iff_of_true (fun named => ?_) fun hidden => absurd hidden internal
    exact update_table_rows provider table (by simp [ProviderTable.isProvider, internal, named])

-- The databases of the given paths, each in its own transaction.
def updateListed (paths : List String) (databases : List ProviderDatabase) : List ProviderDatabase :=
  databases.map fun database => if database.path ∈ paths then updateDatabase provider database else database

theorem update_again (database : ProviderDatabase) :
    updateDatabase provider (updateDatabase provider database) = updateDatabase provider database := by
  have again : ∀ table, updateTable provider (updateTable provider table) = updateTable provider table :=
    fun table => update_table_kept provider _ fun selected row member => by
      rw [update_table_provider] at selected
      exact update_table_rows provider table selected row member
  rw [updateDatabase, updateDatabase, List.map_map]
  exact congrArg (fun tables => { database with tables := tables }) (List.map_congr_left fun table _ => again table)

theorem update_listed_cons (path : String) (rest : List String) (databases : List ProviderDatabase) :
    updateListed provider rest (updateListed provider [path] databases) = updateListed provider (path :: rest) databases := by
  rw [updateListed, updateListed, updateListed, List.map_map]
  refine List.map_congr_left fun database _ => ?_
  simp only [Function.comp_apply, List.mem_cons, List.not_mem_nil, or_false]
  by_cases here : database.path = path
  · have kept : (updateDatabase provider database).path = database.path := rfl
    rw [if_pos here, kept, update_again, ite_self, if_pos (Or.inl here)]
  · rw [if_neg here]
    by_cases later : database.path ∈ rest
    · rw [if_pos later, if_pos (Or.inr later)]
    · rw [if_neg later, if_neg (by simp [here, later])]

theorem update_listed_all (databases : List ProviderDatabase) :
    updateListed provider (databases.map ProviderDatabase.path) databases = databases.map (updateDatabase provider) :=
  List.map_congr_left fun _ member => if_pos (List.mem_map_of_mem member)

theorem update_listed_none (databases : List ProviderDatabase) : updateListed provider [] databases = databases := by
  simp [updateListed]

end Laws

end SessionSync.Provider
