import SessionSync.Local.Access
import SessionSync.Storage.Deletion
import SessionSync.Storage.Mark

set_option autoImplicit false

namespace SessionSync.Storage

open SessionSync.Core Checked Local Rollout

structure LocalTrashPurgePlanV4 where
  schemaVersion : UInt32
  createdAt : String
  operationIds : List String
  trashEntryCount : Nat
  candidateObjects : List StorageObjectRefV4
  objectReclaimableBytes : UInt64
  trashMetadataBytes : UInt64
  retainedSharedBytes : UInt64
  planFingerprint : String
deriving DecidableEq, Repr

structure LocalTrashPurgeResultV4 where
  operationId : String
  deletedTrashEntries : Nat
  deletedObjectCount : Nat
  freedBytes : UInt64
  retainedSharedBytes : UInt64
  journalPath : String
deriving DecidableEq, Repr

inductive LocalTrashPurgeStatusV4 where
  | preparing
  | entriesStaged
  | committed
  | objectsStaged
  | completed
  | rolledBack
deriving DecidableEq, Repr

structure LocalTrashPurgeJournalV4 where
  schemaVersion : UInt32
  operationId : String
  status : LocalTrashPurgeStatusV4
  repositoryRoot : String
  stagingRoot : String
  plan : LocalTrashPurgePlanV4
  createdAt : String
  updatedAt : String
  error : Option String
deriving DecidableEq, Repr

def StorageObjectRefV4.toValue (object : StorageObjectRefV4) : Value :=
  .object [("kind", .string object.kind.wireName), ("sha256", .string object.sha256), ("byteLength", .nat object.byteLength)]

def LocalTrashPurgePlanV4.toValue (plan : LocalTrashPurgePlanV4) : Value :=
  .object [("schemaVersion", .nat plan.schemaVersion.toUInt64), ("createdAt", .string plan.createdAt),
    ("operationIds", .array (plan.operationIds.map .string)), ("trashEntryCount", .nat (UInt64.ofNat plan.trashEntryCount)),
    ("candidateObjects", .array (plan.candidateObjects.map StorageObjectRefV4.toValue)),
    ("objectReclaimableBytes", .nat plan.objectReclaimableBytes), ("trashMetadataBytes", .nat plan.trashMetadataBytes),
    ("retainedSharedBytes", .nat plan.retainedSharedBytes), ("planFingerprint", .string plan.planFingerprint)]

def LocalTrashPurgeStatusV4.wireName : LocalTrashPurgeStatusV4 → String
  | .preparing => "preparing"
  | .entriesStaged => "entries_staged"
  | .committed => "committed"
  | .objectsStaged => "objects_staged"
  | .completed => "completed"
  | .rolledBack => "rolled_back"

def LocalTrashPurgeJournalV4.toValue (journal : LocalTrashPurgeJournalV4) : Value :=
  .object [("schemaVersion", .nat journal.schemaVersion.toUInt64), ("operationId", .string journal.operationId),
    ("status", .string journal.status.wireName), ("repositoryRoot", .string journal.repositoryRoot),
    ("stagingRoot", .string journal.stagingRoot), ("plan", journal.plan.toValue), ("createdAt", .string journal.createdAt),
    ("updatedAt", .string journal.updatedAt), ("error", (journal.error.map Value.string).getD .null)]

-- The directories below quarantine/trash-purge/<operation>, as far as they were made.
structure StagingRoot where
  entries : Option (Std.ExtTreeMap String TrashDirectory)
  objects : Option (Std.ExtTreeMap ObjectName Bytes)

structure PurgeRepository extends MarkedRepository where
  formatMarker : Bool
  -- journal/local-trash-purge-<operation>.json.
  purges : Std.ExtTreeMap String LocalTrashPurgeJournalV4
  -- The other files of journal/.
  journals : Std.ExtTreeMap String Bytes
  staging : Std.ExtTreeMap String StagingRoot
  sourceIndex : Option Bytes

structure PurgeCodec extends MarkCodec where
  repositoryRoot : String
  now : String
  parseValue : Bytes → Except String Value

-- What write_v4_root puts into the file of a journal.
def PurgeCodec.journalText (codec : PurgeCodec) (journal : LocalTrashPurgeJournalV4) : Bytes :=
  canonicalJson codec.lib journal.toValue

section Plan

variable (codec : PurgeCodec)

def fingerprintOf (operationIds : List String) (selectedRoots : List (String × SnapshotRootV4))
    (candidateObjects : List StorageObjectRefV4) (trashMetadataBytes retainedSharedBytes : UInt64) : String :=
  digestBytes codec.lib (canonicalJson codec.lib (.array [.array (operationIds.map .string),
    .object (selectedRoots.map fun root => (root.1, root.2.toValue)), .array (candidateObjects.map StorageObjectRefV4.toValue),
    .nat trashMetadataBytes, .nat retainedSharedBytes]))

def directoryBytes (directory : TrashDirectory) : Except String UInt64 :=
  checkedTotal "storage byte count overflow" (directory.toList.map fun file => fileLength file.2) 0

def checkSelected (roots : List (String × SnapshotRootV4)) (operationId : String) : Except String Unit := do
  let _ ← found (codec.parseUuid operationId) "invalid local trash operation ID"
  ensure (operationId ∈ roots.map Prod.fst) ("local trash operation not found: " ++ operationId)

-- The roots of the selected entries, what they reach, and the length of their own files.
def selectTrash (repository : MarkedRepository) (roots : List (String × SnapshotRootV4)) :
    List String → UInt64 → Except String (List (String × SnapshotRootV4) × List StorageObjectRefV4 × UInt64)
  | [], total => .ok ([], [], total)
  | operationId :: rest, total => do
      let root ← found (roots.lookup operationId) "selected local trash operation disappeared"
      let objects ← collectSnapshotGraphObjects codec.toMarkCodec repository.files root
      let directory ← found repository.trash[operationId]? "No such file or directory"
      let bytes ← directoryBytes directory
      ensure (total.toNat + bytes.toNat < 2 ^ 64) "local trash metadata byte count overflow"
      let others ← selectTrash repository roots rest (total + bytes)
      return ((operationId, root) :: others.1, objects ++ others.2.1, others.2.2)

-- The planning, once the earlier purges are recovered.
def planTrashPurge (repository : MarkedRepository) (requested : List String) (purgeAll : Bool) :
    Except String LocalTrashPurgePlanV4 := do
  ensure (¬(purgeAll = true ∧ requested ≠ [])) "purge-all cannot be combined with explicit trash operation IDs"
  ensure (¬(purgeAll = false ∧ requested = [])) "at least one local trash operation ID is required"
  let roots ← loadLocalTrashRoots codec.toMarkCodec repository
  let operationIds := Keyed.sortedKeys (if purgeAll then roots.map Prod.fst else requested)
  ensure (operationIds ≠ []) "local snapshot trash is empty"
  ensure (¬(operationIds.length ≠ requested.length ∧ purgeAll = false)) "local trash purge request contains duplicate operation IDs"
  operationIds.forM (checkSelected codec roots)
  let selected ← selectTrash codec repository roots operationIds 0
  let reachable ← collectReachableObjects codec.toMarkCodec repository operationIds
  let all ← enumerateRepositoryObjects repository.files StorageObjectKindV4.all
  let candidateObjects := all.filter fun object => object ∉ reachable
  let objectReclaimableBytes ← checkedTotal "local purge byte count overflow" (candidateObjects.map StorageObjectRefV4.byteLength) 0
  let retainedSharedBytes ← checkedTotal "shared local purge byte count overflow"
    ((selected.2.1.dedup.filter fun object => object ∈ reachable).map StorageObjectRefV4.byteLength) 0
  return { schemaVersion := 1, createdAt := codec.now, operationIds := operationIds, trashEntryCount := operationIds.length,
           candidateObjects := candidateObjects, objectReclaimableBytes := objectReclaimableBytes, trashMetadataBytes := selected.2.2,
           retainedSharedBytes := retainedSharedBytes,
           planFingerprint := fingerprintOf codec operationIds selected.1 candidateObjects selected.2.2 retainedSharedBytes }

end Plan

section Files

def PurgeRepository.stagedEntry (repository : PurgeRepository) (root operationId : String) : Option TrashDirectory :=
  (repository.staging[root]?.bind StagingRoot.entries).bind fun entries => entries[operationId]?

def PurgeRepository.stagedObject (repository : PurgeRepository) (root : String) (name : ObjectName) : Option Bytes :=
  (repository.staging[root]?.bind StagingRoot.objects).bind fun objects => objects[name]?

def noFile : String := "No such file or directory"

def PurgeRepository.setStaging (repository : PurgeRepository) (root : String) (staging : StagingRoot) : PurgeRepository :=
  { repository with staging := repository.staging.insert root staging }

-- create_dir_all makes the directories above as well.
def makeEntries (root : String) (repository : PurgeRepository) : Except String PurgeRepository :=
  let staging := repository.staging[root]?.getD ⟨none, none⟩
  .ok (repository.setStaging root { staging with entries := some (staging.entries.getD ∅) })

def makeObjects (root : String) (repository : PurgeRepository) : Except String PurgeRepository :=
  let staging := repository.staging[root]?.getD ⟨none, none⟩
  .ok (repository.setStaging root { staging with objects := some (staging.objects.getD ∅) })

def stageEntry (root operationId : String) (repository : PurgeRepository) : Except String PurgeRepository := do
  let directory ← found repository.trash[operationId]? noFile
  let staging ← found repository.staging[root]? noFile
  let entries ← found staging.entries noFile
  return { repository.setStaging root { staging with entries := some (entries.insert operationId directory) } with
    trash := repository.trash.erase operationId }

def unstageEntry (root operationId : String) (repository : PurgeRepository) : Except String PurgeRepository := do
  let staging ← found repository.staging[root]? noFile
  let entries ← found staging.entries noFile
  let directory ← found entries[operationId]? noFile
  return { repository.setStaging root { staging with entries := some (entries.erase operationId) } with
    trash := repository.trash.insert operationId directory }

def stageObject (root : String) (name : ObjectName) (repository : PurgeRepository) : Except String PurgeRepository := do
  let bytes ← found repository.files[name]? noFile
  let staging ← found repository.staging[root]? noFile
  let objects ← found staging.objects noFile
  return { repository.setStaging root { staging with objects := some (objects.insert name bytes) } with
    files := repository.files.erase name }

def discardObject (root : String) (name : ObjectName) (repository : PurgeRepository) : Except String PurgeRepository := do
  let staging ← found repository.staging[root]? noFile
  let objects ← found staging.objects noFile
  return repository.setStaging root { staging with objects := some (objects.erase name) }

def dropEntries (root : String) (repository : PurgeRepository) : Except String PurgeRepository := do
  let staging ← found repository.staging[root]? noFile
  return repository.setStaging root { staging with entries := none }

def dropObjects (root : String) (repository : PurgeRepository) : Except String PurgeRepository := do
  let staging ← found repository.staging[root]? noFile
  return repository.setStaging root { staging with objects := none }

-- fs::remove_dir takes empty directories only.
def removeStaging (root : String) (repository : PurgeRepository) : Except String PurgeRepository := do
  let staging ← found repository.staging[root]? noFile
  ensure (staging.entries.isNone = true ∧ staging.objects.isNone = true) "Directory not empty"
  return { repository with staging := repository.staging.erase root }

def removeAllStaging (root : String) (repository : PurgeRepository) : PurgeRepository :=
  { repository with staging := repository.staging.erase root }

def PurgeRepository.setPurge (repository : PurgeRepository) (name : String) (journal : LocalTrashPurgeJournalV4) : PurgeRepository :=
  { repository with purges := repository.purges.insert name journal }

end Files

section Run

variable (codec : PurgeCodec)

abbrev PurgeAccess (α : Type) := Device PurgeRepository α

-- write_v4_root: the temporary file is there before the name.
def writePurgeJournal (name : String) (journal : LocalTrashPurgeJournalV4) : PurgeAccess Unit := do
  fallible
  touch fun repository => .ok (repository.setPurge name journal)

def rollbackEntry (root operationId : String) : PurgeAccess Unit := do
  let staged ← probe fun repository : PurgeRepository => (repository.stagedEntry root operationId).isSome
  let original ← probe fun repository : PurgeRepository => repository.trash[operationId]?.isSome
  if staged = true ∧ original = false then touch (unstageEntry root operationId)
  else if staged = true ∧ original = true then
    Prog.ofExcept (.error "cannot roll back local trash purge because both entry paths exist")
  else pure ()

def rollbackLocalTrashPurge (name : String) (journal : LocalTrashPurgeJournalV4) : PurgeAccess Unit := do
  Prog.forEach journal.plan.operationIds.reverse (rollbackEntry journal.stagingRoot)
  writePurgeJournal name { journal with status := .rolledBack, updatedAt := codec.now }
  let present ← probe fun repository : PurgeRepository => repository.staging[journal.stagingRoot]?.isSome
  if present then touch fun repository => .ok (removeAllStaging journal.stagingRoot repository) else pure ()

def discardStaged (root : String) (object : StorageObjectRefV4) (counted : Nat × UInt64) : PurgeAccess (Nat × UInt64) := do
  let staged ← probe fun repository : PurgeRepository => (repository.stagedObject root object.name).isSome
  if staged then
    let observed ← inspect fun repository : PurgeRepository => do
      let bytes ← found (repository.stagedObject root object.name) noFile
      return fileLength bytes
    touch (discardObject root object.name)
    Prog.ofExcept (ensure (counted.2.toNat + observed.toNat < 2 ^ 64) "local purge result byte count overflow")
    return (counted.1 + 1, counted.2 + observed)
  else return counted

-- The object goes to the staging directory first; a run that was cut off in between finds it there.
def removeObject (root : String) (reachable : List StorageObjectRefV4) (object : StorageObjectRefV4) (counted : Nat × UInt64) :
    PurgeAccess (Nat × UInt64) := do
  Prog.ofExcept (validateSha256V4 object.sha256)
  let source ← probe fun repository : PurgeRepository => repository.files[object.name]?.isSome
  if source then
    let observed ← inspect fun repository : PurgeRepository => do
      let bytes ← found repository.files[object.name]? noFile
      return fileLength bytes
    Prog.ofExcept (ensure (observed = object.byteLength) ("local purge object changed after planning: " ++ object.sha256))
    if object ∈ reachable then return counted
    else
      touch (makeObjects root)
      touch (stageObject root object.name)
      discardStaged root object counted
  else discardStaged root object counted

def removeObjects (root : String) (reachable : List StorageObjectRefV4) :
    List StorageObjectRefV4 → Nat × UInt64 → PurgeAccess (Nat × UInt64)
  | [], counted => pure counted
  | object :: rest, counted => do
      let counted ← removeObject root reachable object counted
      removeObjects root reachable rest counted

def removeExisting (present : PurgeRepository → Bool) (remove : PurgeRepository → Except String PurgeRepository) :
    PurgeAccess Unit := do
  let there ← probe present
  if there then touch remove else pure ()

def clearStaging (root : String) : PurgeAccess Unit := do
  removeExisting (fun repository => (repository.staging[root]?.bind StagingRoot.entries).isSome) (dropEntries root)
  removeExisting (fun repository => (repository.staging[root]?.bind StagingRoot.objects).isSome) (dropObjects root)
  removeExisting (fun repository => repository.staging[root]?.isSome) (removeStaging root)

-- local.rs: the index of the sources may name objects that are gone.
def invalidateSourceObjectIndex : PurgeAccess Unit :=
  removeOld (fun repository => repository.sourceIndex.isSome) fun repository => { repository with sourceIndex := none }

-- The status beside an error is the one that the journal has in memory by then.
def finishLocalTrashPurge (name : String) (journal : LocalTrashPurgeJournalV4) :
    Prog (Faulty PurgeRepository) (LocalTrashPurgeStatusV4 × String) (Nat × UInt64) := do
  let counted ← Prog.mapError (journal.status, ·) do
    let reachable ← inspect fun repository : PurgeRepository =>
      collectReachableObjects codec.toMarkCodec repository.toMarkedRepository []
    removeObjects journal.stagingRoot reachable journal.plan.candidateObjects (0, 0)
  Prog.mapError (LocalTrashPurgeStatusV4.objectsStaged, ·) do
    writePurgeJournal name { journal with status := .objectsStaged, updatedAt := codec.now }
    clearStaging journal.stagingRoot
    invalidateSourceObjectIndex
  Prog.mapError (LocalTrashPurgeStatusV4.completed, ·)
    (writePurgeJournal name { journal with status := .completed, updatedAt := codec.now, error := none })
  return counted

def readPurgeJournal (name : String) (repository : PurgeRepository) : Except String LocalTrashPurgeJournalV4 := do
  let journal ← found repository.purges[name]? noFile
  ensure (fileLength (codec.journalText journal) ≤ maxRootBytes) "object exceeds size limit"
  return journal

def resumePurge (name : String) (journal : LocalTrashPurgeJournalV4) : PurgeAccess Unit :=
  match journal.status with
  | .preparing | .entriesStaged => rollbackLocalTrashPurge codec name journal
  | .committed | .objectsStaged => do
      let _ ← (finishLocalTrashPurge codec name journal).mapError Prod.snd
      pure ()
  | .completed | .rolledBack => pure ()

def recoverPurge (name : String) : PurgeAccess Unit := do
  let journal ← inspect (readPurgeJournal codec name)
  Prog.ofExcept (ensure (journal.schemaVersion = 1 ∧ journal.repositoryRoot =
    codec.repositoryRoot) "invalid local trash purge recovery journal")
  resumePurge codec name journal

def recoverLocalTrashPurges : PurgeAccess Unit := do
  let names ← inspect fun repository : PurgeRepository => .ok repository.purges.keys
  Prog.forEach names (recoverPurge codec)

-- A file that is too long is passed over; one that is no JSON stops the planning.
def blockingJournal (name : String) (bytes : Bytes) : Except String (Option String) :=
  if isJson name = false ∨ maxRootBytes < fileLength bytes then .ok none
  else do
    let value ← codec.parseValue bytes
    return ((get value "status").bind Value.asStr).bind fun status => if terminal status then none else some name

def nonTerminalRepositoryJournals (repository : PurgeRepository) : Except String (List String) := do
  let blocking ← repository.journals.toList.mapM fun journal => blockingJournal codec journal.1 journal.2
  return blocking.flatMap Option.toList

def planLocalTrashPurge (requested : List String) (purgeAll : Bool) : PurgeAccess LocalTrashPurgePlanV4 := do
  let marker ← probe PurgeRepository.formatMarker
  Prog.ofExcept (ensure (marker = true) "permanent local trash deletion requires a v4 repository")
  recoverLocalTrashPurges codec
  let active ← inspect (nonTerminalRepositoryJournals codec)
  Prog.ofExcept (ensure (active = []) ("local trash cannot be permanently deleted while " ++ toString active.length ++
    " recovery operation(s) require attention"))
  inspect fun repository : PurgeRepository => planTrashPurge codec repository.toMarkedRepository requested purgeAll

def stageEntries (name : String) (journal : LocalTrashPurgeJournalV4) : PurgeAccess Unit := do
  Prog.forEach journal.plan.operationIds fun operationId => touch (stageEntry journal.stagingRoot operationId)
  writePurgeJournal name { journal with status := .entriesStaged, updatedAt := codec.now }

def stagingRootOf (operationId : String) : String := codec.repositoryRoot ++ "/quarantine/trash-purge/" ++ operationId

def newPurge (operationId : String) (plan : LocalTrashPurgePlanV4) : LocalTrashPurgeJournalV4 where
  schemaVersion := 1
  operationId := operationId
  status := .preparing
  repositoryRoot := codec.repositoryRoot
  stagingRoot := stagingRootOf codec operationId
  plan := plan
  createdAt := codec.now
  updatedAt := codec.now
  error := none

def saturatingAdd (left right : UInt64) : UInt64 := if left.toNat + right.toNat < 2 ^ 64 then left + right else 0xFFFFFFFFFFFFFFFF

def commitPurge (operationId : String) (journal : LocalTrashPurgeJournalV4) : PurgeAccess LocalTrashPurgeResultV4 := do
  writePurgeJournal operationId { journal with status := .committed, updatedAt := codec.now }
  let finished ← (finishLocalTrashPurge codec operationId { journal with status := .committed, updatedAt := codec.now }).attempt
  match finished with
  | .ok counted =>
      return { operationId := operationId, deletedTrashEntries := journal.plan.trashEntryCount, deletedObjectCount := counted.1,
               freedBytes := saturatingAdd counted.2 journal.plan.trashMetadataBytes,
               retainedSharedBytes := journal.plan.retainedSharedBytes, journalPath :=
                 codec.repositoryRoot ++ "/journal/local-trash-purge-" ++ operationId ++ ".json" }
  | .error failed => do
      let _ ← (writePurgeJournal operationId
        { journal with status := failed.1, updatedAt := codec.now, error := some failed.2 }).attempt
      Prog.ofExcept (.error failed.2)

-- A purge once it is planned.
def runPurge (operationId : String) (plan : LocalTrashPurgePlanV4) : PurgeAccess LocalTrashPurgeResultV4 := do
  touch (makeEntries (stagingRootOf codec operationId))
  touch (makeObjects (stagingRootOf codec operationId))
  writePurgeJournal operationId (newPurge codec operationId plan)
  let staged ← (stageEntries codec operationId (newPurge codec operationId plan)).attempt
  match staged with
  | .error error => do
      rollbackLocalTrashPurge codec operationId (newPurge codec operationId plan)
      Prog.ofExcept (.error error)
  | .ok _ => commitPurge codec operationId (newPurge codec operationId plan)

-- Uuid::now_v7 draws the operation.
def purgeLocalTrash (operationId : String) (expected : LocalTrashPurgePlanV4) : PurgeAccess LocalTrashPurgeResultV4 := do
  recoverLocalTrashPurges codec
  let current ← planLocalTrashPurge codec expected.operationIds false
  Prog.ofExcept (ensure (current.planFingerprint = expected.planFingerprint) "local trash purge plan became stale")
  runPurge codec operationId current

end Run

end SessionSync.Storage
