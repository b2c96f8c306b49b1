import Std.Data.ExtTreeMap
import SessionSync.Lib.Checked

set_option autoImplicit false

-- Tables of rows and the statements that define them.
namespace Tables

open Checked

inductive Cell where
  | null
  | integer (value : Int)
  | real (bits : UInt64)
  | text (value : String)
  | blob (value : List UInt8)
deriving DecidableEq, Repr

structure Column where
  name : String
  declaration : String
deriving DecidableEq, Repr

structure Table where
  columns : List Column
  constraints : List String
  rows : List (List Cell)
  aligned : ∀ row ∈ rows, row.length = columns.length

def Table.names (table : Table) : List String := table.columns.map Column.name

def Table.empty (columns : List Column) (constraints : List String) : Table :=
  { columns := columns, constraints := constraints, rows := [], aligned := List.forall_mem_nil _ }

theorem aligned_column (table : Table) (column : Column) (fallback : Cell) :
    ∀ row ∈ table.rows.map (· ++ [fallback]), row.length = (table.columns ++ [column]).length := by
  intro row member
  obtain ⟨before, old, rfl⟩ := List.mem_map.mp member
  rw [List.length_append, List.length_append, table.aligned before old, List.length_singleton, List.length_singleton]

-- Every row takes the default of the new column.
def Table.addColumn (table : Table) (column : Column) (fallback : Cell) : Table :=
  { table with
    columns := table.columns ++ [column]
    rows := table.rows.map (· ++ [fallback])
    aligned := aligned_column table column fallback }

theorem names_added (table : Table) (column : Column) (fallback : Cell) :
    (table.addColumn column fallback).names = table.names ++ [column.name] := by
  rw [Table.names, Table.addColumn, List.map_append, List.map_singleton, Table.names]

structure Index where
  table : String
  columns : List String
deriving DecidableEq, Repr

structure Database where
  tables : Std.ExtTreeMap String Table
  indexes : Std.ExtTreeMap String Index
  userVersion : Int

-- The two CREATE statements are the ones with IF NOT EXISTS.
inductive Statement where
  | addColumn (table : String) (column : Column) (fallback : Cell)
  | createTable (name : String) (columns : List Column) (constraints : List String)
  | createIndex (name : String) (index : Index)
  | setUserVersion (version : Int)
deriving DecidableEq, Repr

inductive SqlError where
  | noSuchTable (table : String)
  | noSuchColumn (table : String)
  | duplicateColumn (column : String)
deriving DecidableEq, Repr

def Database.withTable (db : Database) (name : String) (table : Table) : Database :=
  { db with tables := db.tables.insert name table }

def Database.createTable (db : Database) (name : String) (table : Table) : Database :=
  if db.tables.contains name then db else db.withTable name table

def Statement.run : Statement → Database → Except SqlError Database
  | .addColumn name column fallback, db => do
      let table ← found db.tables[name]? (.noSuchTable name)
      ensure (column.name ∉ table.names) (.duplicateColumn column.name)
      return db.withTable name (table.addColumn column fallback)
  | .createTable name columns constraints, db => .ok (db.createTable name (.empty columns constraints))
  | .createIndex name index, db =>
      if db.indexes.contains name then .ok db
      else do
        let table ← found db.tables[index.table]? (.noSuchTable index.table)
        ensure (∀ column ∈ index.columns, column ∈ table.names) (.noSuchColumn index.table)
        return { db with indexes := db.indexes.insert name index }
  | .setUserVersion version, db => .ok { db with userVersion := version }

def runAll : List Statement → Database → Except SqlError Database
  | [], db => .ok db
  | statement :: rest, db => do
      let db ← statement.run db
      runAll rest db

-- What a table has, and possibly columns after it with one value in all of its rows.
def Table.Extends (before after : Table) : Prop :=
  ∃ added : List (Column × Cell), after.columns = before.columns ++ added.map Prod.fst ∧ after.constraints = before.constraints ∧
    after.rows = before.rows.map (· ++ added.map Prod.snd)

theorem extends_refl (table : Table) : table.Extends table :=
  ⟨[], (List.append_nil _).symm, rfl, by simp⟩

theorem extends_trans (first second third : Table) (one : first.Extends second) (two : second.Extends third) :
    first.Extends third := by
  obtain ⟨early, columns, constraints, rows⟩ := one
  obtain ⟨late, columns', constraints', rows'⟩ := two
  refine ⟨early ++ late, ?_, constraints'.trans constraints, ?_⟩
  · rw [columns', columns, List.map_append, List.append_assoc]
  · rw [rows', rows, List.map_map, List.map_append]
    simp only [Function.comp_def, List.append_assoc]

theorem extends_added (table : Table) (column : Column) (fallback : Cell) : table.Extends (table.addColumn column fallback) :=
  ⟨[(column, fallback)], rfl, rfl, rfl⟩

-- No table is lost and no row of it.
def Database.Keeps (before after : Database) : Prop :=
  ∀ (name : String) (table : Table), before.tables[name]? = some table →
    ∃ grown : Table, after.tables[name]? = some grown ∧ table.Extends grown

theorem keeps_refl (db : Database) : db.Keeps db := fun _ table here => ⟨table, here, extends_refl table⟩

theorem keeps_trans (first second third : Database) (one : first.Keeps second) (two : second.Keeps third) : first.Keeps third := by
  intro name table here
  obtain ⟨middle, there, grown⟩ := one name table here
  obtain ⟨last, later, more⟩ := two name middle there
  exact ⟨last, later, extends_trans _ _ _ grown more⟩

theorem keeps_with (db : Database) (name : String) (after : Table)
    (grown : ∀ table, db.tables[name]? = some table → table.Extends after) : db.Keeps (db.withTable name after) := by
  intro other table here
  by_cases same : name = other
  · subst same
    exact ⟨after, by rw [Database.withTable, Std.ExtTreeMap.getElem?_insert_self], grown table here⟩
  · refine ⟨table, ?_, extends_refl table⟩
    rw [Database.withTable, Std.ExtTreeMap.getElem?_insert, if_neg (by simpa using same), here]

theorem keeps_create (db : Database) (name : String) (table : Table) : db.Keeps (db.createTable name table) := by
  unfold Database.createTable
  by_cases here : db.tables.contains name = true
  · rw [if_pos here]
    exact keeps_refl db
  · rw [if_neg here]
    refine keeps_with db name table fun old there => ?_
    exact absurd (by rw [Std.ExtTreeMap.contains_eq_isSome_getElem?, there, Option.isSome_some]) here

theorem run_keeps (statement : Statement) (db after : Database) (run : statement.run db = .ok after) : db.Keeps after := by
  cases statement with
  | addColumn name column fallback =>
      simp only [Statement.run, bind_ok, found_ok, ensure_ok, pure_ok] at run
      obtain ⟨table, here, _, _, rfl⟩ := run
      refine keeps_with db name _ fun old there => ?_
      cases here.symm.trans there
      exact extends_added table column fallback
  | createTable name columns constraints =>
      cases run
      exact keeps_create db name _
  | createIndex name index =>
      rw [Statement.run] at run
      by_cases here : db.indexes.contains name = true
      · rw [if_pos here] at run
        cases run
        exact keeps_refl db
      · rw [if_neg here] at run
        simp only [bind_ok, pure_ok] at run
        obtain ⟨_, _, _, _, rfl⟩ := run
        exact keeps_refl db
  | setUserVersion version =>
      cases run
      exact keeps_refl db

theorem run_all_keeps (statements : List Statement) (db after : Database) (run : runAll statements db = .ok after) :
    db.Keeps after := by
  induction statements generalizing db with
  | nil =>
      cases run
      exact keeps_refl _
  | cons statement rest ih =>
      obtain ⟨middle, first, later⟩ := (bind_ok _ _ _).mp run
      exact keeps_trans _ _ _ (run_keeps statement db middle first) (ih middle later)

def Database.Has (db : Database) (name column : String) : Prop :=
  ∃ table : Table, db.tables[name]? = some table ∧ column ∈ table.names

-- An ALTER TABLE of a table that is there fails where the column is there already.
theorem add_column_run (db : Database) (name : String) (column : Column) (fallback : Cell) (table : Table)
    (here : db.tables[name]? = some table) :
    (Statement.addColumn name column fallback).run db =
      if column.name ∈ table.names then .error (.duplicateColumn column.name)
      else .ok (db.withTable name (table.addColumn column fallback)) := by
  rw [Statement.run, here]
  change (ensure _ _ >>= _) = _
  by_cases member : column.name ∈ table.names
  · rw [if_pos member, ensure, if_neg (not_not_intro member)]
    rfl
  · rw [if_neg member, ensured _ _ _ member]
    rfl

theorem has_added (db : Database) (name : String) (column : Column) (fallback : Cell) (table : Table)
    (here : db.tables[name]? = some table) (other label : String) :
    (db.withTable name (table.addColumn column fallback)).Has other label ↔
      db.Has other label ∨ (other = name ∧ label = column.name) := by
  unfold Database.Has Database.withTable
  by_cases same : name = other
  · subst same
    simp [here, names_added]
  · simp [Std.ExtTreeMap.getElem?_insert, same, Ne.symm same]

theorem run_all_append (first second : List Statement) (db : Database) :
    runAll (first ++ second) db = runAll first db >>= runAll second := by
  induction first generalizing db with
  | nil => rfl
  | cons statement rest ih =>
      rw [List.cons_append, runAll, runAll]
      cases statement.run db with
      | error error => rfl
      | ok middle => exact ih middle

structure TableDefinition where
  name : String
  columns : List Column
  constraints : List String
deriving DecidableEq, Repr

def TableDefinition.create (definition : TableDefinition) : Statement :=
  .createTable definition.name definition.columns definition.constraints

def defineIndex (index : String × Index) : Statement := .createIndex index.1 index.2

theorem create_tables (db : Database) (definition : TableDefinition) (other : String) :
    (db.createTable definition.name (.empty definition.columns definition.constraints)).tables[other]? =
      if other = definition.name then db.tables[other]?.or (some (.empty definition.columns definition.constraints))
      else db.tables[other]? := by
  unfold Database.createTable
  rw [Std.ExtTreeMap.contains_eq_isSome_getElem?]
  by_cases same : other = definition.name
  · subst same
    rw [if_pos rfl]
    cases here : db.tables[definition.name]? with
    | none => simp [Database.withTable]
    | some table => simp [here]
  · rw [if_neg same]
    cases here : db.tables[definition.name]? with
    | none => simp [Database.withTable, Std.ExtTreeMap.getElem?_insert, Ne.symm same]
    | some table => simp

-- What a run of CREATE TABLE IF NOT EXISTS leaves: the tables that were there, and the missing ones empty.
structure Created (definitions : List TableDefinition) (db after : Database) : Prop where
  version : after.userVersion = db.userVersion
  indexes : after.indexes = db.indexes
  defined : ∀ definition ∈ definitions, after.tables[definition.name]? =
    db.tables[definition.name]?.or (some (.empty definition.columns definition.constraints))
  others : ∀ name ∉ definitions.map TableDefinition.name, after.tables[name]? = db.tables[name]?

theorem create_same (db : Database) (name : String) (table : Table) :
    (db.createTable name table).userVersion = db.userVersion ∧ (db.createTable name table).indexes = db.indexes := by
  unfold Database.createTable
  by_cases here : db.tables.contains name = true
  · rw [if_pos here]
    exact ⟨rfl, rfl⟩
  · rw [if_neg here]
    exact ⟨rfl, rfl⟩

theorem create_all (definitions : List TableDefinition) (distinct : (definitions.map TableDefinition.name).Nodup) (db : Database) :
    ∃ after, runAll (definitions.map TableDefinition.create) db = .ok after ∧ Created definitions db after := by
  induction definitions generalizing db with
  | nil => exact ⟨db, rfl, rfl, rfl, List.forall_mem_nil _, fun _ _ => rfl⟩
  | cons definition rest ih =>
      rw [List.map_cons, List.nodup_cons] at distinct
      obtain ⟨after, run, created⟩ :=
        ih distinct.2 (db.createTable definition.name (.empty definition.columns definition.constraints))
      have same := create_same db definition.name (.empty definition.columns definition.constraints)
      refine ⟨after, run, created.version.trans same.1, created.indexes.trans same.2, ?_, ?_⟩
      · refine List.forall_mem_cons.mpr ⟨?_, fun other member => ?_⟩
        · rw [created.others _ distinct.1, create_tables, if_pos rfl]
        · have apart : other.name ≠ definition.name := fun clash => distinct.1 (clash ▸ List.mem_map_of_mem member)
          rw [created.defined other member, create_tables, if_neg apart]
      · intro name absent
        rw [List.map_cons, List.mem_cons, not_or] at absent
        rw [created.others name absent.2, create_tables, if_neg absent.1]

structure Indexed (indexes : List (String × Index)) (db after : Database) : Prop where
  version : after.userVersion = db.userVersion
  tables : after.tables = db.tables
  defined : ∀ index ∈ indexes, after.indexes.contains index.1 = true
  kept : ∀ name, db.indexes.contains name = true → after.indexes.contains name = true

theorem index_run (db : Database) (index : String × Index) (table : Table) (here : db.tables[index.2.table]? = some table)
    (columns : ∀ column ∈ index.2.columns, column ∈ table.names) :
    ∃ after, (defineIndex index).run db = .ok after ∧ Indexed [index] db after := by
  rw [defineIndex, Statement.run]
  by_cases known : db.indexes.contains index.1 = true
  · rw [if_pos known]
    exact ⟨db, rfl, rfl, rfl, List.forall_mem_singleton.mpr known, fun _ kept => kept⟩
  · rw [if_neg known, here]
    change ∃ after, (ensure _ _ >>= _) = _ ∧ _
    rw [ensured _ _ _ columns]
    refine ⟨_, rfl, rfl, rfl, List.forall_mem_singleton.mpr (by simp), fun name kept => ?_⟩
    rw [Std.ExtTreeMap.contains_insert, kept, Bool.or_true]

theorem index_all (indexes : List (String × Index)) (db : Database)
    (owned : ∀ index ∈ indexes, ∃ table, db.tables[index.2.table]? = some table ∧ ∀ column ∈ index.2.columns, column ∈ table.names) :
    ∃ after, runAll (indexes.map defineIndex) db = .ok after ∧ Indexed indexes db after := by
  induction indexes generalizing db with
  | nil => exact ⟨db, rfl, rfl, rfl, List.forall_mem_nil _, fun _ kept => kept⟩
  | cons index rest ih =>
      obtain ⟨⟨table, here, columns⟩, others⟩ := List.forall_mem_cons.mp owned
      obtain ⟨middle, first, one⟩ := index_run db index table here columns
      obtain ⟨after, later, more⟩ := ih middle (one.tables ▸ others)
      refine ⟨after, ?_, more.version.trans one.version, more.tables.trans one.tables, ?_, fun name kept =>
        more.kept name (one.kept name kept)⟩
      · rw [List.map_cons, runAll, first]
        exact later
      · exact List.forall_mem_cons.mpr ⟨more.kept _ (one.defined index (List.mem_singleton_self _)), more.defined⟩

end Tables
