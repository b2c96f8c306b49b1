import SessionSync.Lib.Crash
import SessionSync.Lib.Tables

set_option autoImplicit false

namespace SessionSync.Metadata

open Checked Prog Tables

-- METADATA_SCHEMA_VERSION.
def metadataSchemaVersion : Int := 6

def namespacesTable : TableDefinition :=
  { name := "namespaces"
    columns := [⟨"id", "TEXT PRIMARY KEY NOT NULL"⟩, ⟨"display_name", "TEXT NOT NULL"⟩, ⟨"head_revision", "TEXT"⟩,
      ⟨"namespace_epoch", "INTEGER NOT NULL DEFAULT 0"⟩, ⟨"created_at", "TEXT NOT NULL"⟩, ⟨"updated_at", "TEXT NOT NULL"⟩]
    constraints := ["FOREIGN KEY (head_revision) REFERENCES revisions(id)"] }

def revisionsTable : TableDefinition :=
  { name := "revisions"
    columns := [⟨"id", "TEXT PRIMARY KEY NOT NULL"⟩, ⟨"namespace_id", "TEXT NOT NULL"⟩, ⟨"parent_revision", "TEXT"⟩,
      ⟨"created_at", "TEXT NOT NULL"⟩, ⟨"manifest_byte_length", "INTEGER NOT NULL CHECK (manifest_byte_length >= 0)"⟩,
      ⟨"thread_count", "INTEGER NOT NULL CHECK (thread_count >= 0)"⟩, ⟨"object_count", "INTEGER NOT NULL CHECK (object_count >= 0)"⟩,
      ⟨"total_bytes", "INTEGER NOT NULL CHECK (total_bytes >= 0)"⟩, ⟨"state", "TEXT NOT NULL DEFAULT 'active'"⟩,
      ⟨"trash_operation_id", "TEXT"⟩]
    constraints :=
      ["FOREIGN KEY (namespace_id) REFERENCES namespaces(id)", "FOREIGN KEY (parent_revision) REFERENCES revisions(id)"] }

def revisionObjectsTable : TableDefinition :=
  { name := "revision_objects"
    columns := [⟨"revision_id", "TEXT NOT NULL"⟩, ⟨"object_sha256", "TEXT NOT NULL"⟩,
      ⟨"byte_length", "INTEGER NOT NULL CHECK (byte_length >= 0)"⟩]
    constraints :=
      ["PRIMARY KEY (revision_id, object_sha256)", "FOREIGN KEY (revision_id) REFERENCES revisions(id) ON DELETE CASCADE"] }

def storageObjectsTable : TableDefinition :=
  { name := "storage_objects"
    columns := [⟨"kind", "TEXT NOT NULL"⟩, ⟨"sha256", "TEXT NOT NULL"⟩, ⟨"byte_length", "INTEGER NOT NULL CHECK (byte_length >= 0)"⟩,
      ⟨"created_at", "TEXT NOT NULL"⟩]
    constraints := ["PRIMARY KEY (kind, sha256)"] }

def objectEdgesTable : TableDefinition :=
  { name := "object_edges"
    columns := [⟨"owner_kind", "TEXT NOT NULL"⟩, ⟨"owner_sha256", "TEXT NOT NULL"⟩, ⟨"target_kind", "TEXT NOT NULL"⟩,
      ⟨"target_sha256", "TEXT NOT NULL"⟩]
    constraints := ["PRIMARY KEY (owner_kind, owner_sha256, target_kind, target_sha256)"] }

def revisionRootsTable : TableDefinition :=
  { name := "revision_roots"
    columns := [⟨"revision_id", "TEXT PRIMARY KEY"⟩, ⟨"root_sha256", "TEXT NOT NULL"⟩, ⟨"root_schema_version", "INTEGER NOT NULL"⟩]
    constraints := [] }

def revisionTrashOperationsTable : TableDefinition :=
  { name := "revision_trash_operations"
    columns := [⟨"id", "TEXT PRIMARY KEY NOT NULL"⟩, ⟨"namespace_id", "TEXT NOT NULL"⟩, ⟨"old_head", "TEXT"⟩, ⟨"new_head", "TEXT"⟩,
      ⟨"epoch_before", "INTEGER NOT NULL"⟩, ⟨"epoch_after", "INTEGER NOT NULL"⟩, ⟨"created_at", "TEXT NOT NULL"⟩,
      ⟨"expires_at", "TEXT NOT NULL"⟩, ⟨"revision_count", "INTEGER NOT NULL"⟩, ⟨"state", "TEXT NOT NULL"⟩]
    constraints := [] }

def gcQueueTable : TableDefinition :=
  { name := "gc_queue"
    columns := [⟨"id", "TEXT PRIMARY KEY NOT NULL"⟩, ⟨"operation_id", "TEXT NOT NULL"⟩, ⟨"object_kind", "TEXT NOT NULL"⟩,
      ⟨"object_sha256", "TEXT NOT NULL"⟩, ⟨"expected_length", "INTEGER NOT NULL CHECK (expected_length >= 0)"⟩,
        ⟨"state", "TEXT NOT NULL"⟩,
      ⟨"created_at", "TEXT NOT NULL"⟩, ⟨"quarantined_at", "TEXT"⟩, ⟨"delete_after_quarantine", "INTEGER NOT NULL DEFAULT 0"⟩,
      ⟨"purged_at", "TEXT"⟩, ⟨"last_error", "TEXT"⟩]
    constraints := [] }

def currentTables : List TableDefinition :=
  [namespacesTable, revisionsTable, revisionObjectsTable, storageObjectsTable, objectEdgesTable, revisionRootsTable,
    revisionTrashOperationsTable, gcQueueTable]

def currentIndexes : List (String × Index) :=
  [("gc_queue_state_idx", ⟨"gc_queue", ["state", "created_at"]⟩),
    ("revisions_namespace_id_idx", ⟨"revisions", ["namespace_id", "created_at", "id"]⟩)]

-- What stands between BEGIN and COMMIT.
def schemaBatch : List Statement :=
  currentTables.map TableDefinition.create ++ currentIndexes.map defineIndex ++
    [.setUserVersion metadataSchemaVersion]

inductive InitializeError where
  | unsupportedSchema (actual : Int)
  | sqlite (error : SqlError)
deriving DecidableEq, Repr

def committed (outcome : Except SqlError Database) : Except InitializeError (Unit × Database) :=
  match outcome with
  | .error error => .error (.sqlite error)
  | .ok after => .ok ((), after)

-- Outside a transaction a statement commits by itself.
def execute (statement : Statement) : Prog Database InitializeError Unit := transact fun db => committed (statement.run db)

def executeBatch (statements : List Statement) : Prog Database InitializeError Unit :=
  transact fun db => committed (runAll statements db)

def when (condition : Prop) [Decidable condition] (prog : Prog Database InitializeError Unit) : Prog Database InitializeError Unit :=
  if condition then prog else pure ()

def addNamespaceEpoch : Prog Database InitializeError Unit :=
  execute (.addColumn "namespaces" ⟨"namespace_epoch", "INTEGER NOT NULL DEFAULT 0"⟩ (.integer 0))

def addRevisionState : Prog Database InitializeError Unit :=
  execute (.addColumn "revisions" ⟨"state", "TEXT NOT NULL DEFAULT 'active'"⟩ (.text "active"))

def addTrashOperation : Prog Database InitializeError Unit :=
  execute (.addColumn "revisions" ⟨"trash_operation_id", "TEXT"⟩ .null)

def addDeleteAfterQuarantine : Prog Database InitializeError Unit :=
  execute (.addColumn "gc_queue" ⟨"delete_after_quarantine", "INTEGER NOT NULL DEFAULT 0"⟩ (.integer 0))

def addPurgedAt : Prog Database InitializeError Unit := execute (.addColumn "gc_queue" ⟨"purged_at", "TEXT"⟩ .null)

def tableExists (name : String) (db : Database) : Bool := db.tables.contains name

-- PRAGMA table_info.
def tableInfo (name : String) (db : Database) : List String := (db.tables[name]?.map Table.names).getD []

def addGcColumns : Prog Database InitializeError Unit := do
  let columns ← query (tableInfo "gc_queue")
  when ("delete_after_quarantine" ∉ columns) addDeleteAfterQuarantine
  when ("purged_at" ∉ columns) addPurgedAt

-- The part of the migration that can be repeated.
def finishMigration (schemaVersion : Int) : Prog Database InitializeError Unit := do
  let gcQueueExists ← query (tableExists "gc_queue")
  when (schemaVersion < 6 ∧ gcQueueExists = true) addGcColumns
  executeBatch schemaBatch

-- MetadataStore::initialize. The journal mode has no bearing on the tables.
def initializeMetadata : Prog Database InitializeError Unit := do
  let schemaVersion ← query Database.userVersion
  ofExcept (ensure (schemaVersion ≤ metadataSchemaVersion) (.unsupportedSchema schemaVersion))
  when (1 ≤ schemaVersion ∧ schemaVersion ≤ 2) addNamespaceEpoch
  when (1 ≤ schemaVersion ∧ schemaVersion ≤ 3) (do addRevisionState; addTrashOperation)
  finishMigration schemaVersion

-- Where a column is newer than the first schema, the version that brought it.
def lateColumns : List (Int × String × String) :=
  [(3, "namespaces", "namespace_epoch"), (4, "revisions", "state"), (4, "revisions", "trash_operation_id"),
    (6, "gc_queue", "delete_after_quarantine"), (6, "gc_queue", "purged_at")]

-- The columns that a table of a database of this version has. Nothing is known of version 0 but
-- that the tables in it, if any, are those of now.
def Settled (version : Int) (table column : String) : Prop :=
  version = 0 ∨ ∀ late ∈ lateColumns, late.2 = (table, column) → late.1 ≤ version

def Complete (db : Database) (settled : String → String → Prop) : Prop :=
  ∀ definition ∈ currentTables, ∀ table, db.tables[definition.name]? = some table →
    ∀ column ∈ definition.columns, settled definition.name column.name → column.name ∈ table.names

-- A database that some run of the migration may have begun on and not ended.
structure Begun (db : Database) : Prop where
  known : 0 ≤ db.userVersion ∧ db.userVersion ≤ metadataSchemaVersion
  altered : 1 ≤ db.userVersion → db.userVersion ≤ 3 → (∃ table, db.tables["namespaces"]? = some table) ∧
    ∃ table, db.tables["revisions"]? = some table
  complete : Complete db (Settled db.userVersion)

-- A column that an ALTER TABLE of the migration is still to add is there already.
def Halfway (db : Database) : Prop :=
  1 ≤ db.userVersion ∧
    (db.userVersion ≤ 2 ∧ db.Has "namespaces" "namespace_epoch" ∨
      db.userVersion ≤ 3 ∧ (db.Has "revisions" "state" ∨ db.Has "revisions" "trash_operation_id"))

-- A database as the server of this schema version left it.
structure OfVersion (version : Int) (db : Database) : Prop where
  begun : Begun db
  version : db.userVersion = version
  whole : ¬ Halfway db

structure Current (db : Database) : Prop where
  version : db.userVersion = metadataSchemaVersion
  tables : ∀ definition ∈ currentTables, ∃ table, db.tables[definition.name]? = some table ∧
    ∀ column ∈ definition.columns, column.name ∈ table.names
  indexes : ∀ index ∈ currentIndexes, db.indexes.contains index.1 = true

-- Runs that were each cut off at some statement.
def Interrupted : Database → Database → Prop := Relation.ReflTransGen fun before after => initializeMetadata.Cut before after

end SessionSync.Metadata
