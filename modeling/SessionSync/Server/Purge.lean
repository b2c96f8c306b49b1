import SessionSync.Server.History

set_option autoImplicit false

namespace SessionSync.Server

open SessionSync.Core Checked

def activeOperations (db : Database) (namespaceId : Uuid) : List (Uuid × TrashOperationRow) :=
  db.trashOperations.toList.filter fun entry => entry.2.namespaceId = namespaceId && entry.2.state = .active

-- A trashed revision of the namespace that one of the operations tagged.
def isSelected (namespaceId : Uuid) (selected : List Uuid) (row : RevisionRow) : Bool :=
  row.namespaceId = namespaceId && row.state = .trashed && row.trashOperationId.any fun operation => selected.contains operation

def selectedRevisions (db : Database) (namespaceId : Uuid) (selected : List Uuid) : List String :=
  (db.revisions.toList.filter fun entry => isSelected namespaceId selected entry.2).map Prod.fst

def selectedRoots (db : Database) (namespaceId : Uuid) (selected : List Uuid) : List String :=
  Keyed.sortedKeys ((db.revisionRoots.toList.filter fun root =>
    db.revisions[root.1]?.any (isSelected namespaceId selected)).map fun root => root.2.rootSha256)

-- The graph of one root, joined with the objects the server has a row for.
def rootObjects (db : Database) (root : String) : List StorageObjectRef :=
  (Closure.closure db.objectEdges.toList [(.revisionRoot, root)]).toList.filterMap fun key =>
    db.storageObjects[key]?.map fun row => { kind := key.1, sha256 := key.2, byteLength := row.byteLength }

-- A BTreeMap keyed by the wire name: its order is the order of the purge queue.
def byWireName (objects : List StorageObjectRef) : Std.ExtTreeMap (String × String) StorageObjectRef :=
  objects.foldl (fun map object => map.insert (object.kind.wireName, object.sha256) object) ∅

def buildHistoryTrashPurgePlan (namespaceId : Uuid) (requested : List Uuid) (purgeAll : Bool) (db : Database) :
    Except MetadataError HistoryTrashPurgePlan := do
  ensure (¬ (purgeAll = true ∧ requested ≠ [])) (conflict "history-purge-selection")
  ensure (¬ (purgeAll = false ∧ requested = [])) (conflict "history-purge-selection")
  ensure (db.namespaces.contains namespaceId = true) (.notFound "namespace" namespaceId.text)
  let active := activeOperations db namespaceId
  ensure requested.Nodup (conflict "duplicate-history-purge-operation")
  ensure (purgeAll = true ∨ ∀ operation ∈ requested, operation ∈ active.map Prod.fst) (conflict "history-trash-operation-not-active")
  let selected := Keyed.sortedKeys (if purgeAll then active.map Prod.fst else requested)
  ensure (selected ≠ []) (conflict "history-trash-empty")
  let revisions := selectedRevisions db namespaceId selected
  ensure (∀ operation ∈ active, operation.1 ∉ selected → ∀ head ∈ operation.2.newHead, head ∉ revisions)
    (conflict "history-purge-has-dependent-trash")
  let objects := (selectedRoots db namespaceId selected).flatMap (rootObjects db)
  return { operationIds := selected
           revisionCount := revisions.length
           candidateObjects := Keyed.values (byWireName objects) }

def purgeRow (namespaceId operationId : Uuid) (row : RevisionRow) : RevisionRow :=
  if isSelected namespaceId [operationId] row then { row with state := .purged } else row

def purgeOperation (namespaceId : Uuid) (db : Database) (operationId : Uuid) : Database :=
  { db with
    revisionRoots := db.revisionRoots.filter fun revisionId _ =>
      !db.revisions[revisionId]?.any (isSelected namespaceId [operationId])
    revisions := db.revisions.map fun _ row => purgeRow namespaceId operationId row
    trashOperations := db.trashOperations.modify operationId fun row =>
      if row.namespaceId = namespaceId ∧ row.state = .active then { row with state := .purged } else row }

-- Objects that something still reaches, or that have no row any more, are skipped.
def purgeQueue (db : Database) (now : Nanos) : List StorageObjectRef → Except MetadataError (List StorageObjectRef)
  | [] => .ok []
  | object :: rest =>
      if (reachableObjects db now).contains object.key then purgeQueue db now rest
      else
        match db.storageObjects[object.key]? with
        | none => purgeQueue db now rest
        | some row => do
            ensure (row.byteLength = object.byteLength) (conflict object.sha256)
            let queued ← purgeQueue db now rest
            return object :: queued

def enqueueGcObjectsForPurge (operationId : Uuid) (ids : Nat → Uuid) (now : Nanos) (objects : List StorageObjectRef) (db : Database) :
    Except MetadataError (Database × List GcQueueEntry) := do
  let queued ← purgeQueue db now (Keyed.values (byWireName objects))
  enqueueObjects operationId true (millis now) (queued.mapIdx fun place object => (ids place, object)) db

def commitHistoryTrashPurge (namespaceId : Uuid) (expected : HistoryTrashPurgePlan) (operationId : Uuid) (ids : Nat → Uuid)
    (now : Nanos) (db : Database) : Except MetadataError (Database × HistoryTrashPurgePlan × List GcQueueEntry) := do
  let current ← buildHistoryTrashPurgePlan namespaceId expected.operationIds false db
  ensure (current = expected) (conflict "stale-history-trash-purge")
  let db := current.operationIds.foldl (purgeOperation namespaceId) db
  let (db, entries) ← enqueueGcObjectsForPurge operationId ids now current.candidateObjects db
  return (db, current, entries)

end SessionSync.Server
