import SessionSync.Server.Schema
import SessionSync.Lib.Checked
import SessionSync.Lib.Closure

set_option autoImplicit false

namespace SessionSync.Server

open SessionSync.Core Checked

-- The rows a revision is joined with in the WHERE clause of reachable_objects.
def isProtected (db : Database) (now : Nanos) (revisionId : String) : Bool :=
  match db.revisions[revisionId]? with
  | none => false
  | some row =>
      row.state = .active || (row.state = .trashed &&
        match row.trashOperationId.bind fun operation => db.trashOperations[operation]? with
        | none => false
        | some operation => operation.state = .active && millis now < operation.expiresAt)

def protectedRoots (db : Database) (now : Nanos) : List ObjectKey :=
  (db.revisionRoots.toList.filter fun root => isProtected db now root.1).map fun root => (.revisionRoot, root.2.rootSha256)

def reachableObjects (db : Database) (now : Nanos) : Std.ExtTreeSet ObjectKey :=
  Closure.closure db.objectEdges.toList (protectedRoots db now)

def gcObjectIsReachable (db : Database) (now : Nanos) (object : StorageObjectRef) : Bool :=
  (reachableObjects db now).contains object.key

structure ServerGcPlan where
  createdAt : Millis
  reachableObjectCount : Nat
  candidates : List StorageObjectRef
  reclaimableBytes : UInt64
  planFingerprint : String
deriving DecidableEq, Repr

-- u64::checked_add along a list.
def checkedSum : List UInt64 → UInt64 → Option UInt64
  | [], total => some total
  | value :: rest, total => if total.toNat + value.toNat < 2 ^ 64 then checkedSum rest (total + value) else none

def StorageObjectRef.toValue (object : StorageObjectRef) : Value :=
  .object [("kind", .string object.kind.wireName), ("sha256", .string object.sha256), ("byteLength", .nat object.byteLength)]

def hour : Nanos := 60 * 60 * 1000000000

-- The table is read in key order, which is the order the candidates are sorted in.
def buildGcPlan (lib : Primitives) (now : Nanos) (db : Database) : Except MetadataError ServerGcPlan := do
  let reachable := reachableObjects db now
  let eligible := db.storageObjects.toList.filter fun entry =>
    entry.2.createdAt ≤ millis (now - hour) && !reachable.contains entry.1
  let candidates := eligible.map fun entry =>
    { kind := entry.1.1, sha256 := entry.1.2, byteLength := entry.2.byteLength : StorageObjectRef }
  let reclaimable ← found (checkedSum (candidates.map (·.byteLength)) 0) (conflict "gc-byte-overflow")
  return { createdAt := millis now
           reachableObjectCount := reachable.size
           candidates := candidates
           reclaimableBytes := reclaimable
           planFingerprint := digestBytes lib (toVec lib (.array (candidates.map StorageObjectRef.toValue))) }

structure GcQueueEntry where
  id : Uuid
  operationId : Uuid
  object : StorageObjectRef
  state : GcState
  deleteAfterQuarantine : Bool
deriving DecidableEq, Repr

def gcEntry (id : Uuid) (row : GcQueueRow) : GcQueueEntry where
  id := id
  operationId := row.operationId
  object := row.object
  state := row.state
  deleteAfterQuarantine := row.deleteAfterQuarantine

-- One INSERT into gc_queue a candidate, with the ids Uuid::now_v7 hands out.
def enqueueObjects (operationId : Uuid) (purge : Bool) (createdAt : Millis) : List (Uuid × StorageObjectRef) → Database →
    Except MetadataError (Database × List GcQueueEntry)
  | [], db => .ok (db, [])
  | (id, object) :: rest, db => do
      let length ← sqlInteger object.byteLength object.sha256
      let row : GcQueueRow := {
        operationId := operationId
        object := { object with byteLength := length }
        state := .pending
        createdAt := createdAt
        quarantinedAt := none
        deleteAfterQuarantine := purge }
      let queue ← insertNew db.gcQueue id row
      let (db, entries) ← enqueueObjects operationId purge createdAt rest { db with gcQueue := queue }
      return (db, gcEntry id row :: entries)

def enqueueGc (lib : Primitives) (expectedFingerprint : String) (operationId : Uuid) (ids : Nat → Uuid) (now : Nanos)
    (db : Database) : Except MetadataError (Database × Uuid × List GcQueueEntry) := do
  let plan ← buildGcPlan lib now db
  ensure (plan.planFingerprint = expectedFingerprint) (conflict "stale-gc-plan")
  let (db, entries) ← enqueueObjects operationId false (millis now)
    (plan.candidates.mapIdx fun place object => (ids place, object)) db
  return (db, operationId, entries)

-- ORDER BY created_at, id: the ids are unique, so any stable sort gives the one order.
def queueOrder (first second : Option Millis × Uuid) : Bool := (compare first second).isLE

def pendingGcEntries (db : Database) : List GcQueueEntry :=
  ((db.gcQueue.toList.filter fun entry => entry.2.state = .pending).insertionSort fun a b =>
    queueOrder (some a.2.createdAt, a.1) (some b.2.createdAt, b.1)).map fun entry => gcEntry entry.1 entry.2

def quarantinedGcEntriesForPurge (db : Database) : List GcQueueEntry :=
  ((db.gcQueue.toList.filter fun entry => entry.2.state = .quarantined && entry.2.deleteAfterQuarantine).insertionSort fun a b =>
    queueOrder (a.2.quarantinedAt, a.1) (b.2.quarantinedAt, b.1)).map fun entry => gcEntry entry.1 entry.2

def completeGcEntry (entry : GcQueueEntry) (now : Nanos) (db : Database) : Database :=
  { db with
    objectEdges := db.objectEdges.filter fun edge => edge.1 ≠ entry.object.key && edge.2 ≠ entry.object.key
    storageObjects := db.storageObjects.erase entry.object.key
    gcQueue := db.gcQueue.modify entry.id fun row =>
      if row.state = .pending then { row with state := .quarantined, quarantinedAt := some (millis now) } else row }

def cancelGcEntry (entryId : Uuid) (db : Database) : Database :=
  { db with gcQueue := db.gcQueue.modify entryId fun row => if row.state = .pending then { row with state := .cancelled } else row }

def markGcEntryPurged (entryId : Uuid) (db : Database) : Database :=
  { db with gcQueue := db.gcQueue.modify entryId fun row =>
      if row.state = .quarantined && row.deleteAfterQuarantine then { row with state := .purged } else row }

def recordStorageObject (object : StorageObjectRef) (now : Nanos) (db : Database) : Except MetadataError Database := do
  let length ← sqlInteger object.byteLength object.sha256
  -- ON CONFLICT only rewrites an equal length, so a known object keeps its row.
  if db.storageObjects.contains object.key then return db
  return { db with storageObjects := db.storageObjects.insert object.key { byteLength := length, createdAt := millis now } }

def ownedBy (owner : ObjectKey) (edge : ObjectKey × ObjectKey) : Bool := edge.1 = owner

def insertEdges (owner : ObjectKey) : List StorageObjectRef → Std.ExtTreeSet (ObjectKey × ObjectKey) →
    Except MetadataError (Std.ExtTreeSet (ObjectKey × ObjectKey))
  | [], edges => .ok edges
  | target :: rest, edges =>
      if edges.contains (owner, target.key) then .error .sqlite else insertEdges owner rest (edges.insert (owner, target.key))

def replaceObjectEdges (owner : StorageObjectRef) (targets : List StorageObjectRef) (db : Database) :
    Except MetadataError Database := do
  let edges ← insertEdges owner.key targets (db.objectEdges.filter fun edge => !ownedBy owner.key edge)
  return { db with objectEdges := edges }

end SessionSync.Server
