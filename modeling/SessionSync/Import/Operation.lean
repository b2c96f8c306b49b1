import SessionSync.Checkout.Disk
import SessionSync.Rollout.Materialize
import SessionSync.Storage.ContentV3
import SessionSync.Storage.Snapshots

set_option autoImplicit false

namespace SessionSync.Import

open SessionSync.Core Checked Local Storage Checkout Rollout

inductive OperationStatus where
  | preparing
  | backedUp
  | applying
  | validating
  | completed
  | rolledBack
  | recoveryRequired
deriving DecidableEq, Repr

-- A file of a session tree: the tree, and the path below it.
abbrev RolloutPath := Slot × String

structure JournalRollout where
  targetPath : RolloutPath
  temporaryPath : RolloutPath
  sha256 : String
deriving DecidableEq, Repr

structure OperationJournal where
  schemaVersion : UInt32
  operationId : Uuid
  snapshotId : String
  targetCodexHome : String
  status : OperationStatus
  plannedRollouts : List JournalRollout
  importedThreadIds : List String
  error : Option String
deriving DecidableEq, Repr

-- The copy is threads.sqlite in the backup directory of the operation.
structure BackupManifest where
  operationId : Uuid
  targetDatabase : String
deriving DecidableEq, Repr

structure ImportStore (δ : Type) where
  journals : Std.ExtTreeMap Uuid OperationJournal
  manifests : Uuid → Option BackupManifest
  copies : Uuid → Option δ

structure ImportDisk (δ : Type) where
  disk : Disk δ
  store : ImportStore δ

variable {δ : Type}

abbrev ImportAccess (δ α : Type) := Device (ImportDisk δ) α

def liveTree (slot : Slot) (disk : Disk δ) : Std.ExtTreeMap String Bytes :=
  match disk.entries (.live slot) with
  | some (.directory files) => files
  | _ => ∅

def rolloutAt (path : RolloutPath) (disk : Disk δ) : Option Bytes := (liveTree path.1 disk)[path.2]?

def setRollout (path : RolloutPath) (bytes : Option Bytes) (disk : Disk δ) : Disk δ :=
  let tree := liveTree path.1 disk
  disk.put (.live path.1) (some (.directory (match bytes with | some bytes => tree.insert path.2 bytes | none => tree.erase path.2)))

def createRollout (path : RolloutPath) (disk : Disk δ) : Except String (Disk δ) := do
  ensure (rolloutAt path disk = none) "File exists"
  return setRollout path (some []) disk

def removeRollout (path : RolloutPath) (disk : Disk δ) : Except String (Disk δ) := do
  let _ ← found (rolloutAt path disk) "No such file or directory"
  return setRollout path none disk

def renameRollout (source destination : RolloutPath) (disk : Disk δ) : Except String (Disk δ) := do
  let bytes ← found (rolloutAt source disk) "No such file or directory"
  return setRollout destination (some bytes) (setRollout source none disk)

-- What an import calls besides the code that is modelled here: nothing is assumed
-- about any of it. Without format.json the repository is a v3 one.
structure ImportEnv (δ : Type) extends CheckoutEnv δ where
  reader : Reader
  serde : Decoders
  files : Files
  configuredProvider : Home δ → Except String String
  insertRows : List (ThreadBundle × RolloutPath) → δ → Except String δ

variable (env : ImportEnv δ)

def onDisk (run : Disk δ → Except String (Disk δ)) : ImportAccess δ Unit :=
  touch fun state => (run state.disk).map fun disk => { state with disk := disk }

def ofDisk {α : Type} (look : Disk δ → Except String α) : ImportAccess δ α := inspect fun state => look state.disk

def discardRollout (path : RolloutPath) : ImportAccess δ Unit := do
  let _ ← (onDisk (removeRollout path)).attempt

def writeJournal (journal : OperationJournal) : ImportAccess δ Unit :=
  atomicWriteJson (fun state => state.store.journals.contains journal.operationId)
    (fun state => { state with store := { state.store with journals := state.store.journals.erase journal.operationId } })
    (fun state => { state with store := { state.store with journals := state.store.journals.insert journal.operationId journal } })

def readJournal (operationId : Uuid) : ImportAccess δ OperationJournal :=
  inspect fun state => found state.store.journals[operationId]? "No such file or directory"

def backupDatabase (operationId : Uuid) (path : String) : ImportAccess δ Unit :=
  touch fun state => do
    let database ← found state.disk.databases[path]? "failed to back up database"
    return { state with
      store := { state.store with copies := fun id => if id = operationId then some database else state.store.copies id } }

def writeManifest (manifest : BackupManifest) : ImportAccess δ Unit :=
  touch fun state => .ok { state with store := { state.store with
    manifests := fun id => if id = manifest.operationId then some manifest else state.store.manifests id } }

def restoreDatabase (operationId : Uuid) (target : String) : ImportAccess δ Unit :=
  touch fun state => do
    let database ← found (state.store.copies operationId) "failed to restore database"
    return { state with disk := { state.disk with databases := state.disk.databases.insert target database } }

-- The names that Uuid::now_v7 gives to the temporary files of one thread.
-- The copy is what a store writes before the temporary file: the normalized rollout, or
-- its own file that it renames.
structure PreparedThread where
  bundle : ThreadBundle
  content : ContentRefV4
  targetPath : RolloutPath
  temporaryPath : RolloutPath
  copyPath : RolloutPath
  v4Content : Option ContentRefV4

def PreparedThread.planned (thread : PreparedThread) : JournalRollout :=
  ⟨thread.targetPath, thread.temporaryPath, thread.bundle.rollout.sha256⟩

-- path.with_file_name(".{file_name}.{purpose}-{uuid}.tmp").
def temporarySibling (path : RolloutPath) (purpose : String) (id : Uuid) : RolloutPath :=
  let name := (path.2.toList.reverse.takeWhile fun c => c ≠ '/').reverse
  let parent := (path.2.toList.reverse.dropWhile fun c => c ≠ '/').reverse
  (path.1, String.ofList (parent ++ '.' :: name ++ '.' :: purpose.toList ++ '-' :: (Uuid.text id).toList ++ ".tmp".toList))

-- path.with_extension("{uuid}.tmp"), of a name that ends in ".tmp".
def storedSibling (path : RolloutPath) (id : Uuid) : RolloutPath :=
  let stem := (path.2.toList.reverse.dropWhile fun c => c ≠ '.').reverse
  (path.1, String.ofList (stem ++ (Uuid.text id).toList ++ ".tmp".toList))

def contentRefFromObject (object : ContentObject) : Except String ContentRefV4 := do
  let storage ← found object.storage "v3 content object has no physical storage reference"
  return ⟨object.sha256, object.byteLength, storageRefV4 storage, object.mediaType, object.logicalPath⟩

structure ImportInput where
  confirmedCodexClosed : Bool
  operationId : Uuid
  manifest : Except String (LocalSnapshot × Option Contents)
  importId : String → Uuid
  copyId : String → Uuid

structure ImportReport where
  operationId : Uuid
  snapshotId : String
  importedCount : Nat
  skippedCount : Nat
deriving DecidableEq, Repr

def ensureImportableThread (thread : ThreadBundle) : Except String Unit := do
  let rows ← found thread.relatedRecords.tables["threads"]? ("thread " ++ thread.threadId ++ " has no database record")
  match rows with
  | [.object _] => pure ()
  | _ => .error ("thread " ++ thread.threadId ++ " must contain exactly one threads-table record")

def prepareThread (input : ImportInput) (contents : Option Contents) (taken : List RolloutPath) (thread : ThreadBundle)
    (disk : Disk δ) :
    Except String PreparedThread := do
  let targetPath ← env.safeRolloutPath thread
  ensure (rolloutAt targetPath disk = none) ("target rollout path already exists for thread " ++ thread.threadId)
  ensure (targetPath ∉ taken) "snapshot contains duplicate rollout target paths"
  let temporaryPath := temporarySibling targetPath "import" (input.importId thread.threadId)
  ensureImportableThread thread
  let content ← contentRefFromObject thread.rollout
  let v4Content := contents.bind fun contents => contents[thread.threadId]?
  let copyId := input.copyId thread.threadId
  return { bundle := thread, content := content, targetPath := targetPath, temporaryPath := temporaryPath
           copyPath :=
             if v4Content.isSome then temporarySibling temporaryPath "normalized" copyId else storedSibling temporaryPath copyId
           v4Content := v4Content }

-- Of two threads of the scan with one id the later one counts.
def existingHash (threads : List ThreadBundle) (threadId : String) : Option String :=
  (threads.reverse.find? fun thread => thread.threadId = threadId).map fun thread => thread.rollout.sha256

def prepareThreads (input : ImportInput) (contents : Option Contents) (existing : List ThreadBundle) :
    List ThreadBundle → List RolloutPath → ImportAccess δ (List PreparedThread)
  | [], _ => pure []
  | thread :: rest, taken => do
      checkCancelled
      match existingHash existing thread.threadId with
      | some hash => do
          Prog.ofExcept (ensure (hash = thread.rollout.sha256) ("thread " ++ thread.threadId ++ " conflicts with the target"))
          prepareThreads input contents existing rest taken
      | none => do
          let prepared ← ofDisk (prepareThread env input contents taken thread)
          let others ← prepareThreads input contents existing rest (prepared.targetPath :: taken)
          return prepared :: others

-- A new file has its name before it has its bytes.
def writeNew (path : RolloutPath) (bytes : Disk δ → Except String Bytes) : ImportAccess δ Unit := do
  onDisk (createRollout path)
  onDisk fun disk => do
    let bytes ← bytes disk
    return setRollout path (some bytes) disk

def rolloutFile (path : RolloutPath) (disk : Disk δ) : Except String Bytes := found (rolloutAt path disk) "No such file or directory"

def machineContext (provider : String) (thread : ThreadBundle) : MachineContextV4 := ⟨provider, thread.workspace.sourcePath⟩

def materializeV4 (thread : PreparedThread) (content : ContentRefV4) : ImportAccess δ Unit := do
  writeNew thread.copyPath fun _ => materializeContent env.lib env.serde env.files content
  let provider ← ofDisk fun disk => env.configuredProvider disk.home
  let _ ← Prog.ofExcept (validateProviderIdV4 provider)
  writeNew thread.temporaryPath fun disk => do
    let normalized ← rolloutFile thread.copyPath disk
    materializeRolloutBytes env.lib env.reader normalized thread.bundle.threadId (machineContext provider thread.bundle)
  discardRollout thread.copyPath

-- FilesystemContentStore::materialize. The error of the last removal is ignored.
def materializeStored (thread : PreparedThread) : ImportAccess δ Unit := do
  createDirAll
  Prog.ofExcept (validateContentRef thread.content)
  let there ← probe fun state => (rolloutAt thread.temporaryPath state.disk).isSome
  Prog.ofExcept (ensure (there = false) "materialization destination already exists")
  createDirAll
  let result ← (do
    writeNew thread.copyPath fun _ => contentV3 env.lib env.serde env.files thread.content
    onDisk (renameRollout thread.copyPath thread.temporaryPath) : ImportAccess δ Unit).attempt
  match result with
  | .ok _ => pure ()
  | .error error => do
      discardRollout thread.copyPath
      Prog.fail error

def stageImport (thread : PreparedThread) : ImportAccess δ Unit := do
  checkCancelled
  createDirAll
  match thread.v4Content with
  | some content => materializeV4 env thread content
  | none => materializeStored env thread

def importRows (target : String) (prepared : List PreparedThread) : ImportAccess δ Unit :=
  onDisk fun disk => do
    let database ← found disk.databases[target]? "failed to open target database"
    let database ← env.insertRows (prepared.map fun thread => (thread.bundle, thread.targetPath)) database
    return { disk with databases := disk.databases.insert target database }

def installRollout (thread : PreparedThread) : ImportAccess δ Unit := do
  checkCancelled
  onDisk (renameRollout thread.temporaryPath thread.targetPath)

def applyImport (prepared : List PreparedThread) (target : String) (journal : OperationJournal) : ImportAccess δ Unit := do
  writeJournal { journal with status := .applying }
  Prog.forEach prepared (stageImport env)
  checkCancelled
  importRows env target prepared
  Prog.forEach prepared installRollout

def removeMatching (path : RolloutPath) (sha256 : String) : ImportAccess δ Unit := do
  let hash ← (ofDisk fun disk => (rolloutFile path disk).map (digestBytes env.lib)).attempt
  match hash with
  | .ok hash => if hash = sha256 then onDisk (removeRollout path) else pure ()
  | .error _ => pure ()

-- Both errors of the removals are ignored.
def rollBackThread (thread : PreparedThread) : ImportAccess δ Unit := do
  discardRollout thread.temporaryPath
  let _ ← (removeMatching env thread.targetPath thread.bundle.rollout.sha256).attempt

def failureText (error : String) (restored : Except String Unit) : String :=
  match restored with
  | .ok _ => error
  | .error failed => error ++ "; database rollback also failed: " ++ failed

def rollbackAndFail (error : String) (prepared : List PreparedThread) (target : String) (journal : OperationJournal) :
    ImportAccess δ ImportReport := do
  Prog.forEach prepared (rollBackThread env)
  let restored ← (restoreDatabase journal.operationId target).attempt
  let status := match restored with | .ok _ => OperationStatus.rolledBack | .error _ => .recoveryRequired
  let _ ← (writeJournal { journal with status := status, error := some (failureText error restored) }).attempt
  Prog.ofExcept restored
  Prog.ofExcept (.error error)

def validateImported (threads : List ThreadBundle) (home : Home δ) (thread : PreparedThread) : Except String Unit :=
  match thread.v4Content with
  | some _ => do
      let observed ← found (threads.find? fun item =>
        item.threadId = thread.bundle.threadId) "imported thread disappeared during validation"
      let source ← found observed.rollout.sourcePath "validated thread has no rollout source path"
      let (sha256, _) ← env.normalized home source thread.bundle.threadId
      ensure (sha256 = thread.bundle.rollout.sha256) ("post-import semantic validation failed for thread " ++ thread.bundle.threadId)
  | none =>
      ensure (existingHash threads thread.bundle.threadId = some thread.bundle.rollout.sha256)
        ("post-import validation failed for thread " ++ thread.bundle.threadId)

def validateImport (prepared : List PreparedThread) : ImportAccess δ Unit := do
  let report ← ofDisk fun disk => env.scan disk.home
  Prog.forEach prepared fun thread => ofDisk fun disk => validateImported env report.threads disk.home thread

-- What is undone once it has failed: an error in here is returned as a value. The
-- error of the write in the middle is not among them.
def installImport (prepared : List PreparedThread) (target : String) (journal : OperationJournal) :
    ImportAccess δ (Except String Unit) := do
  let applied ← (applyImport env prepared target journal).attempt
  match applied with
  | .error error => return .error error
  | .ok _ => do
      writeJournal { journal with status := .validating }
      let cancelled ← checkCancelled.attempt
      match cancelled with
      | .error _ => return .error "operation cancelled"
      | .ok _ => (validateImport env prepared).attempt

-- Up to the first write to the home.
def backUpImport (target : String) (journal : OperationJournal) : ImportAccess δ Unit := do
  checkCancelled
  backupDatabase journal.operationId target
  writeManifest ⟨journal.operationId, target⟩
  writeJournal { journal with status := .backedUp }

def finishImport (prepared : List PreparedThread) (target : String) (journal : OperationJournal) (skipped : Nat)
    (installed : Except String Unit) : ImportAccess δ ImportReport :=
  match installed with
  | .error error => rollbackAndFail env error prepared target journal
  | .ok _ => do
      writeJournal { journal with status := .completed, importedThreadIds := prepared.map fun thread => thread.bundle.threadId }
      return ⟨journal.operationId, journal.snapshotId, prepared.length, skipped⟩

def operationJournalSchemaVersion : UInt32 := 1

def newJournal (input : ImportInput) (snapshotId : String) (prepared : List PreparedThread) : OperationJournal :=
  { schemaVersion := operationJournalSchemaVersion
    operationId := input.operationId
    snapshotId := snapshotId
    targetCodexHome := env.targetCodexHome
    status := .preparing
    plannedRollouts := prepared.map PreparedThread.planned
    importedThreadIds := []
    error := none }

structure Preflight where
  snapshot : LocalSnapshot
  prepared : List PreparedThread
  databasePaths : List String

-- What an import reads before it writes anything.
def preflight (input : ImportInput) : ImportAccess δ Preflight := do
  Prog.ofExcept (ensure (input.confirmedCodexClosed = true) "import requires confirmation that Codex is fully closed")
  let (snapshot, contents) ← Prog.ofExcept input.manifest
  checkCancelled
  let report ← ofDisk fun disk => env.scan disk.home
  let prepared ← prepareThreads env input contents report.threads snapshot.threads []
  createDirAll
  createDirAll
  return ⟨snapshot, prepared, report.databasePaths⟩

def skippedCount (found : Preflight) : Nat := found.snapshot.threads.length - found.prepared.length

def beginImport (input : ImportInput) : ImportAccess δ (Preflight × OperationJournal) := do
  let found ← preflight env input
  let journal := newJournal env input found.snapshot.snapshotId found.prepared
  writeJournal journal
  return (found, journal)

def runImport (found : Preflight) (journal : OperationJournal) : ImportAccess δ (String × Except String Unit) := do
  let target ← ofDisk fun disk => env.selectPrimaryDatabase disk.home found.databasePaths
  backUpImport target journal
  let installed ← installImport env found.prepared target journal
  return (target, installed)

def importLocalSnapshot (input : ImportInput) : ImportAccess δ ImportReport := do
  let (found, journal) ← beginImport env input
  if found.prepared = [] then do
    writeJournal { journal with status := .completed }
    return ⟨input.operationId, found.snapshot.snapshotId, 0, skippedCount found⟩
  else do
    let (target, installed) ← runImport env found journal
    finishImport env found.prepared target journal (skippedCount found) installed

def preservedText (preserved : List RolloutPath) : String :=
  if preserved = [] then "Recovered an incomplete operation from its backup"
  else "Recovered database; preserved files whose hashes no longer matched the operation: " ++
    ", ".intercalate (preserved.map fun path => path.2)

-- The rollouts that are left where they are.
def recoverRollout (rollout : JournalRollout) : ImportAccess δ (List RolloutPath) := do
  discardRollout rollout.temporaryPath
  let present ← probe fun state => (rolloutAt rollout.targetPath state.disk).isSome
  if present then do
    let hash ← (ofDisk fun disk => (rolloutFile rollout.targetPath disk).map (digestBytes env.lib)).attempt
    if hash.toOption = some rollout.sha256 then do
      onDisk (removeRollout rollout.targetPath)
      return []
    else return [rollout.targetPath]
  else return []

def recoverRollouts : List JournalRollout → ImportAccess δ (List RolloutPath)
  | [] => pure []
  | rollout :: rest => do
      let preserved ← recoverRollout env rollout
      let others ← recoverRollouts rest
      return preserved ++ others

def recoverPrepared (journal : OperationJournal) : ImportAccess δ OperationJournal := do
  Prog.forEach journal.plannedRollouts fun rollout => discardRollout rollout.temporaryPath
  let journal := { journal with status := .rolledBack, error := some "Recovered before any Codex data write began" }
  writeJournal journal
  return journal

def recoverBackedUp (journal : OperationJournal) : ImportAccess δ OperationJournal := do
  let manifest ← inspect fun state => found (state.store.manifests journal.operationId) "failed to open manifest.json"
  Prog.ofExcept (ensure (manifest.operationId = journal.operationId) "backup manifest does not belong to operation")
  let preserved ← recoverRollouts env journal.plannedRollouts
  restoreDatabase journal.operationId manifest.targetDatabase
  let journal := { journal with status := .rolledBack, error := some (preservedText preserved) }
  writeJournal journal
  return journal

def recoverIncompleteOperation (confirmedCodexClosed : Bool) (operationId : Uuid) : ImportAccess δ OperationJournal := do
  Prog.ofExcept (ensure (confirmedCodexClosed = true) "recovery requires confirmation that Codex is fully closed")
  let journal ← readJournal operationId
  let backedUp ← probe fun state => (state.store.manifests journal.operationId).isSome
  match journal.status with
  | .completed | .rolledBack => return journal
  | status => if backedUp = false ∧ status = .preparing then recoverPrepared journal else recoverBackedUp env journal

end SessionSync.Import
