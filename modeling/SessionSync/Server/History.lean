import SessionSync.Server.Reachability

set_option autoImplicit false

namespace SessionSync.Server

open SessionSync.Core Checked

structure NewRevisionMetadata where
  id : String
  namespaceId : Uuid
  parentRevision : Option String
  createdAt : String
  manifestByteLength : UInt64
  threadCount : UInt64
  objects : List ObjectDescriptor
  objectCountOverride : Option UInt64
  totalBytesOverride : Option UInt64
  rootSchemaVersion : UInt32
deriving DecidableEq, Repr

structure RevisionMetadata where
  id : String
  namespaceId : Uuid
  parentRevision : Option String
  createdAt : String
  manifestByteLength : UInt64
  threadCount : UInt64
  objectCount : UInt64
  totalBytes : UInt64
  objects : List ObjectDescriptor
  rootSchemaVersion : UInt32
deriving DecidableEq, Repr

inductive CommitRevisionOutcome where
  | created
  | alreadyCommitted
deriving DecidableEq, Repr

structure HistoryTrashOperation where
  operationId : Uuid
  row : TrashOperationRow
deriving DecidableEq, Repr

structure HistoryTrashPurgePlan where
  operationIds : List Uuid
  revisionCount : Nat
  candidateObjects : List StorageObjectRef
deriving DecidableEq, Repr

def isControl (c : Char) : Bool := c.toNat < 0x20 || (0x7F ≤ c.toNat && c.toNat ≤ 0x9F)

def trim (text : String) : List Char := ((text.toList.dropWhile isWhitespace).reverse.dropWhile isWhitespace).reverse

def normalizeName (displayName : String) : Except MetadataError String := do
  let name := trim displayName
  ensure (name ≠ [] ∧ name.length ≤ 128 ∧ name.any isControl = false) .invalidName
  return String.ofList name

def createNamespace (displayName : String) (id : Uuid) (db : Database) : Except MetadataError (Database × Uuid) := do
  let displayName ← normalizeName displayName
  let namespaces ← insertNew db.namespaces id { displayName := displayName, headRevision := none, namespaceEpoch := 0 }
  return ({ db with namespaces := namespaces }, id)

def renameNamespace (namespaceId : Uuid) (displayName : String) (db : Database) : Except MetadataError (Database × Uuid) := do
  let displayName ← normalizeName displayName
  let row ← found db.namespaces[namespaceId]? (.notFound "namespace" namespaceId.text)
  return ({ db with namespaces := db.namespaces.insert namespaceId { row with displayName := displayName } }, namespaceId)

instance lengthAgrees (known : Option UInt64) (p : UInt64 → Prop) [DecidablePred p] : Decidable (∀ length ∈ known, p length) :=
  Option.decidableForallMem known

def objectLengths (revisionId : String) : List ObjectDescriptor → Std.ExtTreeMap String UInt64 →
    Except MetadataError (Std.ExtTreeMap String UInt64)
  | [], lengths => .ok lengths
  | object :: rest, lengths => do
      ensure (validSha256 object.sha256 = true) (conflict revisionId)
      ensure (∀ length ∈ lengths[object.sha256]?, length = object.byteLength) (conflict revisionId)
      objectLengths revisionId rest (lengths.insert object.sha256 object.byteLength)

def normalizeRevision (lib : Primitives) (revision : NewRevisionMetadata) : Except MetadataError RevisionMetadata := do
  ensure (validSha256 revision.id = true) (conflict revision.id)
  ensure (revision.namespaceId.version = 7) (conflict revision.id)
  ensure (∀ parent ∈ revision.parentRevision, validSha256 parent = true) (conflict revision.id)
  ensure (lib.isRfc3339 revision.createdAt = true) (conflict revision.id)
  let lengths ← objectLengths revision.id revision.objects ∅
  let objects := lengths.toList.map fun entry => { sha256 := entry.1, byteLength := entry.2 : ObjectDescriptor }
  let total ← found (checkedSum (objects.map (·.byteLength)) 0) (conflict revision.id)
  return { id := revision.id
           namespaceId := revision.namespaceId
           parentRevision := revision.parentRevision
           createdAt := revision.createdAt
           manifestByteLength := revision.manifestByteLength
           threadCount := revision.threadCount
           objectCount := revision.objectCountOverride.getD (UInt64.ofNat objects.length)
           totalBytes := revision.totalBytesOverride.getD total
           objects := objects
           rootSchemaVersion := revision.rootSchemaVersion }

-- REVISION_ROOT_V3_SCHEMA_VERSION stands in where no root row is left.
def readRevision (db : Database) (revisionId : String) : Option RevisionMetadata :=
  db.revisions[revisionId]?.map fun row =>
    { id := revisionId
      namespaceId := row.namespaceId
      parentRevision := row.parentRevision
      createdAt := row.createdAt
      manifestByteLength := row.manifestByteLength
      threadCount := row.threadCount
      objectCount := row.objectCount
      totalBytes := row.totalBytes
      objects := (db.revisionObjects.toList.filter fun entry => entry.1.1 = revisionId).map fun entry =>
        { sha256 := entry.1.2, byteLength := entry.2 }
      rootSchemaVersion := (db.revisionRoots[revisionId]?.map (·.rootSchemaVersion)).getD 3 }

def revisionRow (revision : RevisionMetadata) : Except MetadataError RevisionRow := do
  let manifestByteLength ← sqlInteger revision.manifestByteLength revision.id
  let threadCount ← sqlInteger revision.threadCount revision.id
  let objectCount ← sqlInteger revision.objectCount revision.id
  let totalBytes ← sqlInteger revision.totalBytes revision.id
  return { namespaceId := revision.namespaceId
           parentRevision := revision.parentRevision
           createdAt := revision.createdAt
           manifestByteLength := manifestByteLength
           threadCount := threadCount
           objectCount := objectCount
           totalBytes := totalBytes
           state := .active
           trashOperationId := none }

def parentInNamespace (db : Database) (revision : RevisionMetadata) : Prop :=
  ∀ parent ∈ revision.parentRevision, db.revisions[parent]?.map (·.namespaceId) = some revision.namespaceId

instance (db : Database) (revision : RevisionMetadata) : Decidable (parentInNamespace db revision) :=
  inferInstanceAs (Decidable (∀ parent ∈ revision.parentRevision, _))

-- INSERT INTO revisions and the head of the namespace; the WHERE clause of the
-- UPDATE repeats checks made in the same transaction.
def advanceHead (db : Database) (current : NamespaceRow) (revision : RevisionMetadata) : Except MetadataError Database := do
  let row ← revisionRow revision
  let revisions ← insertNew db.revisions revision.id row
  return { db with
    revisions := revisions
    namespaces := db.namespaces.insert revision.namespaceId { current with headRevision := some revision.id } }

def commitRevisionRoot (lib : Primitives) (expectedHead : Option String) (expectedEpoch : UInt64)
    (revision : NewRevisionMetadata) (db : Database) : Except MetadataError (Database × CommitRevisionOutcome × UInt64) := do
  let revision ← normalizeRevision lib revision
  let current ← found db.namespaces[revision.namespaceId]? (.notFound "namespace" revision.namespaceId.text)
  ensure (current.namespaceEpoch = expectedEpoch) (.epochMismatch current.namespaceEpoch)
  match readRevision db revision.id with
  | some existing => do
      ensure (existing = revision) (conflict revision.id)
      ensure (current.headRevision = some revision.id) (conflict revision.id)
      return (db, .alreadyCommitted, current.namespaceEpoch)
  | none => do
      ensure (current.headRevision = expectedHead) (.headMismatch current.headRevision)
      ensure (revision.parentRevision = expectedHead) (conflict revision.id)
      ensure (parentInNamespace db revision) (conflict revision.id)
      let db ← advanceHead db current revision
      let roots ← insertNew db.revisionRoots revision.id
        { rootSha256 := revision.id, rootSchemaVersion := revision.rootSchemaVersion }
      return ({ db with revisionRoots := roots }, .created, current.namespaceEpoch)

def insertRevisionObjects (revisionId : String) : List ObjectDescriptor → Std.ExtTreeMap (String × String) UInt64 →
    Except MetadataError (Std.ExtTreeMap (String × String) UInt64)
  | [], table => .ok table
  | object :: rest, table => do
      let length ← sqlInteger object.byteLength revisionId
      let table ← insertNew table (revisionId, object.sha256) length
      insertRevisionObjects revisionId rest table

-- The call of the earlier protocol: no epoch and no root row.
def commitRevision (lib : Primitives) (expectedHead : Option String) (revision : NewRevisionMetadata) (db : Database) :
    Except MetadataError (Database × CommitRevisionOutcome) := do
  let revision ← normalizeRevision lib revision
  let current ← found db.namespaces[revision.namespaceId]? (.notFound "namespace" revision.namespaceId.text)
  match readRevision db revision.id with
  | some existing => do
      ensure (existing = revision) (conflict revision.id)
      if current.headRevision = some revision.id then
        return (db, .alreadyCommitted)
      ensure (current.headRevision = expectedHead) (.headMismatch current.headRevision)
      throw (conflict revision.id)
  | none => do
      ensure (current.headRevision = expectedHead) (.headMismatch current.headRevision)
      ensure (revision.parentRevision = expectedHead) (conflict revision.id)
      ensure (parentInNamespace db revision) (conflict revision.id)
      let db ← advanceHead db current revision
      let objects ← insertRevisionObjects revision.id revision.objects db.revisionObjects
      return ({ db with revisionObjects := objects }, .created)

-- SELECT parent_revision ... WHERE id = ? AND namespace_id = ? AND state = 'active'.
def activeParent (db : Database) (namespaceId : Uuid) (revisionId : String) : Option (Option String) :=
  db.revisions[revisionId]?.bind fun row =>
    if row.namespaceId = namespaceId ∧ row.state = .active then some row.parentRevision else none

def historyDepth : Nat := 100000

-- The walk from the head to the new head; `budget` is what history-depth leaves.
def collectRemoved (db : Database) (namespaceId : Uuid) (newHead : Option String) :
    Nat → Option String → Except MetadataError (List String)
  | budget, cursor =>
      if cursor = newHead then .ok []
      else do
        let revisionId ← found cursor (conflict "history-ancestor")
        let parent ← found (activeParent db namespaceId revisionId) (conflict revisionId)
        match budget with
        | 0 => throw (conflict "history-depth")
        | budget + 1 => do
            let removed ← collectRemoved db namespaceId newHead budget parent
            return revisionId :: removed

def trashRow (operationId : Uuid) (row : RevisionRow) : RevisionRow :=
  if row.state = .active then { row with state := .trashed, trashOperationId := some operationId } else row

def trashRevision (operationId : Uuid) (revisions : Std.ExtTreeMap String RevisionRow) (revisionId : String) :
    Std.ExtTreeMap String RevisionRow :=
  revisions.modify revisionId (trashRow operationId)

def thirtyDays : Nanos := 30 * 24 * hour

-- u64::checked_add(1).
def nextEpoch (epoch : UInt64) : Except MetadataError UInt64 :=
  if epoch.toNat + 1 < 2 ^ 64 then .ok (epoch + 1) else .error (conflict "epoch-overflow")

def truncateHistory (namespaceId : Uuid) (expectedHead : Option String) (expectedEpoch : UInt64) (newHead : Option String)
    (operationId : Uuid) (now : Nanos) (db : Database) : Except MetadataError (Database × HistoryTrashOperation) := do
  let current ← found db.namespaces[namespaceId]? (.notFound "namespace" namespaceId.text)
  ensure (current.headRevision = expectedHead) (.headMismatch current.headRevision)
  ensure (current.namespaceEpoch = expectedEpoch) (.epochMismatch current.namespaceEpoch)
  ensure (current.headRevision ≠ newHead) (conflict (current.headRevision.getD "empty-history"))
  let removed ← collectRemoved db namespaceId newHead historyDepth current.headRevision
  let epochAfter ← nextEpoch current.namespaceEpoch
  let operation : TrashOperationRow := {
    namespaceId := namespaceId
    oldHead := current.headRevision
    newHead := newHead
    epochBefore := current.namespaceEpoch
    epochAfter := epochAfter
    createdAt := millis now
    expiresAt := millis (now + thirtyDays)
    revisionCount := removed.length
    state := .active }
  let trashOperations ← insertNew db.trashOperations operationId operation
  return ({ db with
    revisions := removed.foldl (trashRevision operationId) db.revisions
    trashOperations := trashOperations
    namespaces := db.namespaces.insert namespaceId { current with headRevision := newHead, namespaceEpoch := epochAfter } },
    { operationId := operationId, row := operation })

def reactivate (operationId : Uuid) (row : RevisionRow) : RevisionRow :=
  if row.trashOperationId = some operationId then { row with state := .active, trashOperationId := none } else row

def restoreHistoryTrash (namespaceId operationId : Uuid) (expectedHead : Option String) (expectedEpoch : UInt64) (now : Nanos)
    (db : Database) : Except MetadataError (Database × HistoryTrashOperation) := do
  let current ← found db.namespaces[namespaceId]? (.notFound "namespace" namespaceId.text)
  ensure (current.headRevision = expectedHead) (.headMismatch current.headRevision)
  ensure (current.namespaceEpoch = expectedEpoch) (.epochMismatch current.namespaceEpoch)
  let operation ← found (db.trashOperations[operationId]?.filter fun row => row.namespaceId = namespaceId)
    (.notFound "history trash operation" operationId.text)
  ensure (operation.state = .active ∧ operation.newHead = current.headRevision ∧ now < operation.expiresAt * 1000000)
    (conflict operationId.text)
  let epoch ← nextEpoch expectedEpoch
  return ({ db with
    revisions := db.revisions.map fun _ row => reactivate operationId row
    namespaces := db.namespaces.insert namespaceId { current with headRevision := operation.oldHead, namespaceEpoch := epoch }
    trashOperations := db.trashOperations.insert operationId { operation with state := .restored } },
    { operationId := operationId, row := { operation with state := .restored } })

end SessionSync.Server
