import SessionSync.Local.Access
import SessionSync.Server.History

set_option autoImplicit false

namespace SessionSync.Workspace

open SessionSync.Core Checked Local

-- A path outside the repository, or quarantine/empty-workspaces/{operation}-{index}-{name}.
inductive Place where
  | workspace (path : String)
  | quarantine (operationId : Uuid) (index : Nat) (name : String)
deriving DecidableEq, Repr

-- What is found at a path, and what lies in it if it is a directory.
structure Directory where
  regular : Bool
  entries : List String
deriving DecidableEq, Repr

def emptyDirectory : Directory := ⟨true, []⟩

inductive WorkspaceCleanupStatus where
  | preparing
  | backedUp
  | projectStateUpdated
  | completed
  | rolledBack
deriving DecidableEq, Repr

structure QuarantinedWorkspaceDirectory where
  originalPath : Place
  quarantinePath : Place
deriving DecidableEq, Repr

-- A backup is named by the operation that has it in its backup directory.
structure WorkspaceCleanupJournal where
  schemaVersion : UInt32
  operationId : Uuid
  codexHome : String
  requestedPaths : List String
  status : WorkspaceCleanupStatus
  globalStatePath : Option String
  globalStateBackup : Option Uuid
  originalStateSha256 : Option String
  updatedStateSha256 : Option String
  plannedQuarantines : List QuarantinedWorkspaceDirectory
  removedCodexProjects : Nat
  removedThreadAssignments : Nat
  error : Option String
deriving DecidableEq, Repr

structure CleanupDisk where
  directories : Place → Option Directory
  globalStates : String → Option Bytes
  backups : Uuid → Option Bytes
  journals : Std.ExtTreeMap Uuid WorkspaceCleanupJournal

abbrev CleanupAccess (α : Type) := Device CleanupDisk α

inductive WorkspaceDirectoryState where
  | missing
  | empty
  | nonEmpty
  | notDirectory
deriving DecidableEq, Repr

structure WorkspacePathEntry where
  path : String
  directoryState : WorkspaceDirectoryState
  cleanupEligible : Bool
deriving DecidableEq, Repr

-- The serialized state is there when something was removed from it.
structure RemovedProjects where
  updated : Option Bytes
  removedProjects : Nat
  removedAssignments : Nat

-- What a cleanup reads before its journal, and where the devices end: nothing is
-- assumed about any of it.
structure CleanupEnv where
  lib : Primitives
  normalizePathForMatch : String → String
  fileName : String → String
  display : Place → String
  cleanupReport : CleanupDisk → Except String (List WorkspacePathEntry)
  parseGlobalState : Bytes → Except String Unit
  removeCodexProjectPaths : List String → Bytes → Except String RemovedProjects
  crossesDevices : Place → Place → Bool

def maxMappings : Nat := 128
def workspaceCleanupJournalSchemaVersion : UInt32 := 1

def CleanupDisk.setDirectory (disk : CleanupDisk) (place : Place) (directory : Option Directory) : CleanupDisk :=
  { disk with directories := fun other => if other = place then directory else disk.directories other }

def CleanupDisk.setGlobalState (disk : CleanupDisk) (path : String) (bytes : Option Bytes) : CleanupDisk :=
  { disk with globalStates := fun other => if other = path then bytes else disk.globalStates other }

def CleanupDisk.setJournal (disk : CleanupDisk) (journal : WorkspaceCleanupJournal) : CleanupDisk :=
  { disk with journals := disk.journals.insert journal.operationId journal }

def CleanupDisk.dropJournal (disk : CleanupDisk) (operationId : Uuid) : CleanupDisk :=
  { disk with journals := disk.journals.erase operationId }

def notFound : String := "No such file or directory"

def createDirectory (place : Place) (disk : CleanupDisk) : Except String CleanupDisk := do
  ensure (disk.directories place = none) "File exists"
  return disk.setDirectory place (some emptyDirectory)

def removeDirectory (place : Place) (disk : CleanupDisk) : Except String CleanupDisk := do
  let directory ← found (disk.directories place) notFound
  ensure (directory = emptyDirectory) "Directory not empty"
  return disk.setDirectory place none

def renameDirectory (source destination : Place) (disk : CleanupDisk) : Except String CleanupDisk := do
  let directory ← found (disk.directories source) notFound
  ensure (∀ there ∈ disk.directories destination, there = emptyDirectory) "Directory not empty"
  return (disk.setDirectory source none).setDirectory destination (some directory)

def directoryIsEmpty (place : Place) : CleanupAccess Bool :=
  inspect fun disk => do
    let directory ← found (disk.directories place) notFound
    return directory.entries.isEmpty

def discardDirectory (place : Place) : CleanupAccess Unit := do
  let _ ← (touch (removeDirectory place)).attempt

variable (env : CleanupEnv)

-- fs::rename has failed with CrossesDevices.
def moveAcross (source destination : Place) : CleanupAccess Unit := do
  fallible
  touch (createDirectory destination)
  let empty ← directoryIsEmpty source
  if empty then do
    let removed ← (touch (removeDirectory source)).attempt
    match removed with
    | .ok () => return
    | .error error => do
        discardDirectory destination
        .fail error
  else do
    discardDirectory destination
    .fail ("workspace directory " ++ env.display source ++ " changed during cleanup; cleanup was refused")

def transferDirectory (source destination : Place) : CleanupAccess Unit :=
  if env.crossesDevices source destination then moveAcross env source destination else touch (renameDirectory source destination)

def moveEmptyDirectory (source destination : Place) : CleanupAccess Unit := do
  let metadata ← inspect fun disk => found (disk.directories source) ("failed to inspect empty workspace " ++ env.display source)
  Prog.ofExcept (ensure (metadata.regular = true) "workspace cleanup accepts only regular non-symlink directories")
  let empty ← directoryIsEmpty source
  Prog.ofExcept (ensure (empty = true) ("workspace directory " ++ env.display source ++ " is no longer empty; cleanup was refused"))
  transferDirectory env source destination
  let empty ← directoryIsEmpty destination
  if empty then return
  else do
    let _ ← (touch (renameDirectory destination source)).attempt
    .fail "quarantined workspace changed during cleanup; the original was restored"

def globalStateFile (path : String) (disk : CleanupDisk) : Except String Bytes := found (disk.globalStates path) notFound

-- The new file has its temporary name when the old one is removed.
def replaceFileIfHashMatches (path expectedSha256 : String) (bytes : Bytes) : CleanupAccess Unit := do
  let live ← inspect (globalStateFile path)
  Prog.ofExcept (ensure (digestBytes env.lib live = expectedSha256) ("file changed while workspace cleanup was preparing: " ++ path))
  fallible
  touch fun disk => do
    let _ ← globalStateFile path disk
    return disk.setGlobalState path none
  touch fun disk => .ok (disk.setGlobalState path (some bytes))
  let installed ← inspect (globalStateFile path)
  Prog.ofExcept (ensure (digestBytes env.lib installed = digestBytes env.lib bytes) "workspace cleanup replacement failed validation")

def writeNewGlobalState (path : String) (bytes : Bytes) : CleanupAccess Unit :=
  touch fun disk => do
    ensure (disk.globalStates path = none) ("failed to create backup file " ++ path)
    return disk.setGlobalState path (some bytes)

def writeBackup (operationId : Uuid) (bytes : Bytes) : CleanupAccess Unit :=
  touch fun disk => do
    ensure (disk.backups operationId = none) "failed to create backup file codex-global-state.json"
    return { disk with backups := fun other => if other = operationId then some bytes else disk.backups other }

def writeWorkspaceCleanupJournal (journal : WorkspaceCleanupJournal) : CleanupAccess Unit := do
  createDirAll
  atomicWriteJson (fun disk => disk.journals.contains journal.operationId) (fun disk => disk.dropJournal journal.operationId)
    fun disk => disk.setJournal journal

def rollbackDirectory (planned : QuarantinedWorkspaceDirectory) : CleanupAccess Unit := do
  let quarantined ← probe fun disk => (disk.directories planned.quarantinePath).isSome
  let present ← probe fun disk => (disk.directories planned.originalPath).isSome
  match quarantined, present with
  | true, false => do
      createDirAll
      moveEmptyDirectory env planned.quarantinePath planned.originalPath
  | true, true =>
      .fail ("cannot roll back workspace cleanup because both paths exist: " ++ env.display planned.originalPath ++ " and " ++
        env.display planned.quarantinePath)
  | false, _ => return

def rollbackGlobalState (journal : WorkspaceCleanupJournal) : CleanupAccess Unit :=
  match journal.globalStatePath, journal.globalStateBackup, journal.originalStateSha256, journal.updatedStateSha256 with
  | some live, some backup, some originalHash, some updatedHash => do
      let backupBytes ← inspect fun disk => found (disk.backups backup) "failed to read workspace cleanup backup"
      Prog.ofExcept (ensure (digestBytes env.lib backupBytes =
        originalHash) "workspace cleanup global-state backup failed hash validation")
      let current ← inspect fun disk => .ok (disk.globalStates live)
      match current with
      | some liveBytes =>
          if digestBytes env.lib liveBytes = originalHash then return
          else if digestBytes env.lib liveBytes = updatedHash then replaceFileIfHashMatches env live updatedHash backupBytes
          else .fail "Codex global state changed after workspace cleanup; refusing rollback overwrite"
      | none => writeNewGlobalState live backupBytes
  | _, _, _, _ => return

def rollbackWorkspaceCleanup (journal : WorkspaceCleanupJournal) : CleanupAccess Unit := do
  Prog.forEach journal.plannedQuarantines.reverse (rollbackDirectory env)
  rollbackGlobalState env journal
  writeWorkspaceCleanupJournal { journal with status := .rolledBack }

def WorkspaceCleanupJournal.terminal (journal : WorkspaceCleanupJournal) : Bool :=
  journal.status = .completed || journal.status = .rolledBack

def recoverCleanup (codexHome : String) (operationId : Uuid) : CleanupAccess Unit := do
  let journal ← inspect fun disk => found disk.journals[operationId]? "failed to read workspace cleanup journal"
  Prog.ofExcept (ensure (journal.schemaVersion = workspaceCleanupJournalSchemaVersion)
    "unsupported workspace cleanup journal schema version")
  if env.normalizePathForMatch journal.codexHome ≠ env.normalizePathForMatch codexHome ∨ journal.terminal = true then return
  else rollbackWorkspaceCleanup env journal

-- read_dir lists every journal once; which comes first is of no consequence here.
def recoverIncompleteWorkspaceCleanups (codexHome : String) : CleanupAccess Unit := do
  let listed ← inspect fun disk => .ok disk.journals.keys
  Prog.forEach listed (recoverCleanup env codexHome)

structure CleanupInput where
  codexHome : String
  requestedPaths : List String
  operationId : Uuid

structure CleanupPlan where
  selected : List WorkspacePathEntry
  plannedQuarantines : List QuarantinedWorkspaceDirectory
  globalState : Option Bytes
  updatedState : Option Bytes
  removedCodexProjects : Nat
  removedThreadAssignments : Nat

def globalStatePath (codexHome : String) : String := codexHome ++ "/.codex-global-state.json"

-- BTreeMap::get: of two entries with one identity the later one is kept.
def availableEntry (report : List WorkspacePathEntry) (identity : String) : Option WorkspacePathEntry :=
  report.reverse.find? fun entry => entry.cleanupEligible && env.normalizePathForMatch entry.path = identity

def selectEntries (report : List WorkspacePathEntry) : List String → List String → Except String (List WorkspacePathEntry)
  | [], _ => .ok []
  | requested :: rest, seen => do
      let identity := env.normalizePathForMatch (String.ofList (Server.trim requested))
      ensure (identity ∉ seen) "workspace cleanup request contains duplicate paths"
      let entry ← found (availableEntry env report identity)
        ("workspace cleanup path is no longer an unreferenced empty or missing Codex project: " ++
          String.ofList (Server.trim requested))
      let others ← selectEntries report rest (identity :: seen)
      return entry :: others

-- An entry keeps its index whether it is moved or not.
def planQuarantines (operationId : Uuid) : List WorkspacePathEntry → Nat → List QuarantinedWorkspaceDirectory
  | [], _ => []
  | entry :: rest, index =>
      if entry.directoryState = .empty then
        ⟨.workspace entry.path, .quarantine operationId index (env.fileName entry.path)⟩ :: planQuarantines operationId rest
          (index + 1)
      else planQuarantines operationId rest (index + 1)

def planGlobalState (identities : List String) : Option Bytes → Except String RemovedProjects
  | none => .ok ⟨none, 0, 0⟩
  | some bytes => do
      env.parseGlobalState bytes
      env.removeCodexProjectPaths identities bytes

def planCleanup (input : CleanupInput) (disk : CleanupDisk) : Except String CleanupPlan := do
  let report ← env.cleanupReport disk
  let selected ← selectEntries env report input.requestedPaths []
  let planned := planQuarantines env input.operationId selected 0
  let globalState := disk.globalStates (globalStatePath input.codexHome)
  let removed ← planGlobalState env (selected.map fun entry => env.normalizePathForMatch entry.path) globalState
  ensure (planned ≠ [] ∨ removed.updated ≠ none) "workspace cleanup no longer has any directory or Codex project state to change"
  return { selected := selected
           plannedQuarantines := planned
           globalState := globalState
           updatedState := removed.updated
           removedCodexProjects := removed.removedProjects
           removedThreadAssignments := removed.removedAssignments }

def newJournal (input : CleanupInput) (plan : CleanupPlan) : WorkspaceCleanupJournal where
  schemaVersion := workspaceCleanupJournalSchemaVersion
  operationId := input.operationId
  codexHome := input.codexHome
  requestedPaths := plan.selected.map WorkspacePathEntry.path
  status := .preparing
  globalStatePath := plan.globalState.map fun _ => globalStatePath input.codexHome
  globalStateBackup := plan.globalState.bind fun _ => plan.updatedState.map fun _ => input.operationId
  originalStateSha256 := plan.globalState.bind fun bytes => plan.updatedState.map fun _ => digestBytes env.lib bytes
  updatedStateSha256 := plan.updatedState.map (digestBytes env.lib)
  plannedQuarantines := plan.plannedQuarantines
  removedCodexProjects := plan.removedCodexProjects
  removedThreadAssignments := plan.removedThreadAssignments
  error := none

def backUpGlobalState (input : CleanupInput) (plan : CleanupPlan) : CleanupAccess Unit :=
  match plan.globalState, plan.updatedState with
  | some bytes, some _ => do
      createDirAll
      writeBackup input.operationId bytes
  | _, _ => return

def updateGlobalState (input : CleanupInput) (plan : CleanupPlan) : CleanupAccess Unit :=
  match plan.globalState, plan.updatedState with
  | some bytes, some updated =>
      replaceFileIfHashMatches env (globalStatePath input.codexHome) (digestBytes env.lib bytes) updated
  | _, _ => return

def applyCleanup (input : CleanupInput) (plan : CleanupPlan) : CleanupAccess Unit := do
  backUpGlobalState input plan
  writeWorkspaceCleanupJournal { newJournal env input plan with status := .backedUp }
  updateGlobalState env input plan
  writeWorkspaceCleanupJournal { newJournal env input plan with status := .projectStateUpdated }
  createDirAll
  Prog.forEach plan.plannedQuarantines fun planned => moveEmptyDirectory env planned.originalPath planned.quarantinePath

structure WorkspaceCleanupResult where
  quarantined : List QuarantinedWorkspaceDirectory
  removedCodexProjects : Nat
  removedThreadAssignments : Nat
  backupPath : Option Uuid
  journalPath : Uuid
deriving DecidableEq, Repr

def finishCleanup (input : CleanupInput) (plan : CleanupPlan) : Except String Unit → CleanupAccess WorkspaceCleanupResult
  | .ok () => do
      writeWorkspaceCleanupJournal { newJournal env input plan with status := .completed }
      return { quarantined := plan.plannedQuarantines
               removedCodexProjects := plan.removedCodexProjects
               removedThreadAssignments := plan.removedThreadAssignments
               backupPath := (newJournal env input plan).globalStateBackup
               journalPath := input.operationId }
  | .error error => do
      let undone ← (rollbackWorkspaceCleanup env { newJournal env input plan with error := some error }).attempt
      match undone with
      | .ok () => .fail error
      | .error rollbackError => .fail ("workspace cleanup rollback also failed: " ++ rollbackError ++ ": " ++ error)

-- Everything after the recovery.
def cleanUp (input : CleanupInput) : CleanupAccess WorkspaceCleanupResult := do
  let plan ← inspect (planCleanup env input)
  writeWorkspaceCleanupJournal (newJournal env input plan)
  let applied ← (applyCleanup env input plan).attempt
  finishCleanup env input plan applied

def quarantineEmptyDirectories (input : CleanupInput) : CleanupAccess WorkspaceCleanupResult := do
  Prog.ofExcept (ensure (input.requestedPaths ≠ []) "at least one workspace cleanup path is required")
  Prog.ofExcept (ensure (input.requestedPaths.length ≤ maxMappings) "workspace cleanup exceeds the 128 path safety limit")
  recoverIncompleteWorkspaceCleanups env input.codexHome
  cleanUp env input

end SessionSync.Workspace
