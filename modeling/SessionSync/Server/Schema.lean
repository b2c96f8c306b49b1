import SessionSync.Core.Json
import SessionSync.Lib.Keyed

set_option autoImplicit false

namespace SessionSync.Server

open SessionSync.Core

-- The clock in nanoseconds. The database keeps milliseconds: its timestamps have one
-- fixed width, so their text order is the order of the numbers.
abbrev Nanos := Int
abbrev Millis := Int

def millis (now : Nanos) : Millis := now / 1000000

inductive StorageObjectKind where
  | whole
  | chunk
  | chunkManifest
  | thread
  | revisionRoot
deriving DecidableEq, Repr, Ord

instance : Std.TransOrd StorageObjectKind where
  eq_swap {a b} := by cases a <;> cases b <;> rfl
  isLE_trans {a b c} := by cases a <;> cases b <;> cases c <;> decide

instance : Std.LawfulEqOrd StorageObjectKind where
  eq_of_compare {a b} same := by cases a <;> cases b <;> first | rfl | cases same

def StorageObjectKind.wireName : StorageObjectKind → String
  | .whole => "whole"
  | .chunk => "chunk"
  | .chunkManifest => "chunkManifest"
  | .thread => "thread"
  | .revisionRoot => "revisionRoot"

abbrev ObjectKey := StorageObjectKind × String

instance edgeTrans : Std.TransOrd (ObjectKey × ObjectKey) := inferInstance

structure StorageObjectRef where
  kind : StorageObjectKind
  sha256 : String
  byteLength : UInt64
deriving DecidableEq, Repr

def StorageObjectRef.key (object : StorageObjectRef) : ObjectKey := (object.kind, object.sha256)

structure ObjectDescriptor where
  sha256 : String
  byteLength : UInt64
deriving DecidableEq, Repr

inductive RevisionState where
  | active
  | trashed
  | purged
deriving DecidableEq, Repr

inductive TrashState where
  | active
  | restored
  | purged
deriving DecidableEq, Repr

inductive GcState where
  | pending
  | cancelled
  | quarantined
  | purged
deriving DecidableEq, Repr

-- An INTEGER epoch is the u64 read through i64, which keeps every bit.
structure NamespaceRow where
  displayName : String
  headRevision : Option String
  namespaceEpoch : UInt64
deriving DecidableEq, Repr

structure RevisionRow where
  namespaceId : Uuid
  parentRevision : Option String
  createdAt : String
  manifestByteLength : UInt64
  threadCount : UInt64
  objectCount : UInt64
  totalBytes : UInt64
  state : RevisionState
  trashOperationId : Option Uuid
deriving DecidableEq, Repr

structure StorageObjectRow where
  byteLength : UInt64
  createdAt : Millis
deriving DecidableEq, Repr

structure RevisionRootRow where
  rootSha256 : String
  rootSchemaVersion : UInt32
deriving DecidableEq, Repr

structure TrashOperationRow where
  namespaceId : Uuid
  oldHead : Option String
  newHead : Option String
  epochBefore : UInt64
  epochAfter : UInt64
  createdAt : Millis
  expiresAt : Millis
  revisionCount : Nat
  state : TrashState
deriving DecidableEq, Repr

structure GcQueueRow where
  operationId : Uuid
  object : StorageObjectRef
  state : GcState
  createdAt : Millis
  quarantinedAt : Option Millis
  deleteAfterQuarantine : Bool
deriving DecidableEq, Repr

-- One field a table, keyed by its primary key.
structure Database where
  namespaces : Std.ExtTreeMap Uuid NamespaceRow
  revisions : Std.ExtTreeMap String RevisionRow
  revisionObjects : Std.ExtTreeMap (String × String) UInt64
  storageObjects : Std.ExtTreeMap ObjectKey StorageObjectRow
  objectEdges : Std.ExtTreeSet (ObjectKey × ObjectKey)
  revisionRoots : Std.ExtTreeMap String RevisionRootRow
  trashOperations : Std.ExtTreeMap Uuid TrashOperationRow
  gcQueue : Std.ExtTreeMap Uuid GcQueueRow

def Database.initialized : Database := ⟨∅, ∅, ∅, ∅, ∅, ∅, ∅, ∅⟩

inductive MetadataError where
  | notFound (kind : String) (id : String)
  | headMismatch (current : Option String)
  | epochMismatch (current : UInt64)
  | revisionConflict (revisionId : String)
  | invalidName
  | sqlite
deriving DecidableEq, Repr

-- Its text, but for the one of an SQLite error, which SQLite words.
def MetadataError.text (debug : Option String → String) (sqlite : String) : MetadataError → String
  | .notFound kind id => kind ++ " not found: " ++ id
  | .headMismatch current => "namespace head mismatch; current head is " ++ debug current
  | .epochMismatch current => "namespace epoch mismatch; current epoch is " ++ toString current.toNat
  | .revisionConflict revisionId => "revision conflicts with immutable metadata: " ++ revisionId
  | .invalidName => "namespace display name must contain 1 to 128 non-control characters"
  | .sqlite => sqlite

def conflict (revisionId : String) : MetadataError := .revisionConflict revisionId

-- sql_integer: an i64 column takes values below 2^63.
def sqlInteger (value : UInt64) (revisionId : String) : Except MetadataError UInt64 :=
  if value.toNat < 2 ^ 63 then .ok value else .error (conflict revisionId)

-- An INSERT into a table whose primary key is taken fails the whole transaction.
def insertNew {κ α : Type} [Ord κ] [Std.TransOrd κ] (table : Std.ExtTreeMap κ α) (key : κ) (row : α) :
    Except MetadataError (Std.ExtTreeMap κ α) :=
  if table.contains key then .error .sqlite else .ok (table.insert key row)

end SessionSync.Server
