import SessionSync.Provider.Databases
import SessionSync.Rollout.ProviderStream
import SessionSync.Rollout.Materialize
import SessionSync.Local.ThreadMutation
import SessionSync.Local.Access
import Mathlib.Logic.Function.Basic

set_option autoImplicit false

namespace SessionSync.Provider

open SessionSync.Core Checked Storage Rollout Local

inductive ProviderSyncStatus where
  | preparing
  | applyingFiles
  | applyingDatabases
  | validating
  | completed
  | failed
deriving DecidableEq, Repr

-- The home and the journals of the repository. The two trees of rollouts are told apart
-- by whether they are archived; of config.toml only the entry that is read is here. The
-- databases are those that the scan lists, the catalogs the files that hold the sidebar's
-- three tables; sqlite/codex-dev.db can be both.
structure ProviderHome where
  config : Option (Except String (Option String))
  trees : Bool → Std.ExtTreeMap String Bytes
  staged : Std.ExtTreeMap String Bytes
  databases : List ProviderDatabase
  catalogs : List String
  journals : Std.ExtTreeMap String ProviderSyncStatus

structure ProviderSyncPreview where
  provider : String
  rolloutCount : Nat
  rolloutBytes : Nat
  databaseRowCount : Nat
  catalogDatabaseCount : Nat
  warnings : List ScanWarning
  noChanges : Bool

structure ProviderSyncReport where
  operationId : String
  provider : String
  rolloutCount : Nat
  databaseRowCount : Nat

structure ProviderSyncFilePlan where
  threadId : String
  archived : Bool
  path : String
  staged : String
  displaced : String
  original : ChunkDescriptorV4
  replacement : ChunkDescriptorV4

def validateProviderId (provider : String) : Except String String := do
  let provider := trim provider
  ensure (provider ≠ "" ∧ (utf8 provider.toList).length ≤ 128) "provider ID must contain between 1 and 128 characters"
  ensure (provider.toList.all providerCharacter = true) "provider ID contains unsupported characters"
  return provider

def detectConfiguredProvider : Option (Except String (Option String)) → Except String String
  | none => .ok "openai"
  | some (.error error) => .error error
  | some (.ok named) => validateProviderId (named.getD "openai")

section Reading

variable (env : ScanEnv)

def rolloutFiles (home : ProviderHome) : List RolloutFile :=
  treeFiles env "sessions" false (home.trees false) ++ treeFiles env "archived_sessions" true (home.trees true)

def scanHome (home : ProviderHome) : Scan := scanRollouts env.reader env.utf8Error (rolloutFiles env home)

-- The provider that the scan reports: the row's before the rollout's.
def threadProvider (home : ProviderHome) (thread : RolloutRecord) : Option String :=
  ((recordRow home.databases thread.threadId).bind fun row => stringField row "model_provider").or thread.modelProvider

def place (thread : RolloutRecord) : Bool × String := (thread.source.archived, thread.source.path)

def selectStep (provider : String) (targets : List RolloutRecord) (thread : RolloutRecord) : Except String (List RolloutRecord) := do
  let current ← readRolloutProvider env.reader thread.source.bytes
  if current = some provider ∨ place thread ∈ targets.map place then return targets else return targets ++ [thread]

def selectTargets (provider : String) (threads : List RolloutRecord) : Except String (List RolloutRecord) :=
  threads.foldlM (selectStep env provider) []

structure SyncPlan where
  targets : List RolloutRecord
  databaseRowCount : Nat
  databases : List String

def planSync (provider : String) (home : ProviderHome) : Except String SyncPlan := do
  let targets ← selectTargets env provider (scanHome env home).threads
  return ⟨targets, countDatabaseRows provider home.databases, home.databases.map ProviderDatabase.path⟩

def previewProviderSync (home : ProviderHome) : Except String ProviderSyncPreview := do
  let provider ← detectConfiguredProvider home.config
  let plan ← planSync env provider home
  let saturated := fun total (thread : RolloutRecord) => min (total + thread.byteLength.toNat) (2 ^ 64 - 1)
  return {
    provider := provider
    rolloutCount := plan.targets.length
    rolloutBytes := plan.targets.foldl saturated 0
    databaseRowCount := plan.databaseRowCount
    catalogDatabaseCount := home.catalogs.length
    warnings := (scanHome env home).warnings
    noChanges := plan.targets.isEmpty && plan.databaseRowCount = 0 }

def validateProviderSync (provider : String) (home : ProviderHome) : Except String Unit :=
  ensure (∀ thread ∈ (scanHome env home).threads, threadProvider home thread = some provider)
    "provider synchronization validation found mismatched threads"

end Reading

-- Path::with_extension: what follows the last dot of the name is replaced.
def displacedPath (operationId path : String) : String :=
  String.ofList (path.toList.reverse.dropWhile fun c => c ≠ '.').reverse ++ "provider-sync-" ++ operationId ++ ".old"

def stagedPath (operationId : String) (index : Nat) : String := operationId ++ "/" ++ toString index ++ ".jsonl"

namespace ProviderHome

variable (home : ProviderHome)

def withTree (archived : Bool) (tree : Std.ExtTreeMap String Bytes) : ProviderHome :=
  { home with trees := Function.update home.trees archived tree }

def openRollout (archived : Bool) (path : String) : Except String Bytes :=
  found (home.trees archived)[path]? "No such file or directory"

-- fs::rename inside one tree, in one step.
def renameRollout (archived : Bool) (source destination : String) : Except String ProviderHome := do
  let bytes ← home.openRollout archived source
  return home.withTree archived (((home.trees archived).erase source).insert destination bytes)

def createStaged (path : String) : Except String ProviderHome := do
  ensure (path ∉ home.staged) "File exists"
  return { home with staged := home.staged.insert path [] }

def fillStaged (path : String) (bytes : Bytes) : ProviderHome := { home with staged := home.staged.insert path bytes }

def promoteStaged (file : ProviderSyncFilePlan) : Except String ProviderHome := do
  let bytes ← found home.staged[file.staged]? "No such file or directory"
  return { home.withTree file.archived ((home.trees file.archived).insert file.path bytes) with
    staged := home.staged.erase file.staged }

def removeRollout (archived : Bool) (path : String) : Except String ProviderHome := do
  let _ ← home.openRollout archived path
  return home.withTree archived ((home.trees archived).erase path)

def removeStaged (path : String) : Except String ProviderHome := do
  let _ ← found home.staged[path]? "No such file or directory"
  return { home with staged := home.staged.erase path }

def removeStagingDir (operationId : String) : ProviderHome :=
  { home with staged := home.staged.filter fun path _ => !(operationId ++ "/").toList.isPrefixOf path.toList }

def updateDatabaseAt (provider path : String) : ProviderHome :=
  { home with databases := updateListed provider [path] home.databases }

-- A catalog that the scan does not list has nothing that is kept here.
def forgetCatalogAt (path : String) : Except String ProviderHome := do
  let databases ← home.databases.mapM fun database => if database.path = path then forgetDatabase database else .ok database
  return { home with databases := databases }

end ProviderHome

section Program

variable (lib : Primitives) (env : ScanEnv) (operationId provider : String)

abbrev Sync (α : Type) := Device ProviderHome α

def writeJournal (status : ProviderSyncStatus) : Sync Unit :=
  atomicWriteJson (fun home => decide (operationId ∈ home.journals)) (fun home =>
    { home with journals := home.journals.erase operationId })
    fun home => { home with journals := home.journals.insert operationId status }

-- The staged file and the description of what it replaces.
def stageProviderRollout (index : Nat) (target : RolloutRecord) : Sync ProviderSyncFilePlan := do
  let staged := stagedPath operationId index
  let input ← inspect fun home => home.openRollout target.source.archived target.source.path
  touch fun home => home.createStaged staged
  let written ← Prog.ofExcept (transformRolloutFile lib env.reader input target.threadId provider)
  touch fun home => .ok (home.fillStaged staged written.1)
  let original ← inspect fun home => home.openRollout target.source.archived target.source.path
  return {
    threadId := target.threadId
    archived := target.source.archived
    path := target.source.path
    staged := staged
    displaced := displacedPath operationId target.source.path
    original := { sha256 := digestBytes lib original, byteLength := UInt64.ofNat original.length }
    replacement := written.2 }

def stageAll (index : Nat) : List RolloutRecord → Sync (List ProviderSyncFilePlan)
  | [] => pure []
  | target :: rest => do
      checkCancelled
      let file ← stageProviderRollout lib env operationId provider index target
      writeJournal operationId .preparing
      let files ← stageAll (index + 1) rest
      return file :: files

-- A refused second rename is undone by a rename back, which may be refused as well.
def replaceWithStaged (file : ProviderSyncFilePlan) : Sync Unit := do
  let occupied ← probe fun home => decide (file.displaced ∈ home.trees file.archived)
  Prog.ofExcept (ensure (occupied = false) "provider sync displaced path already exists")
  touch fun home => home.renameRollout file.archived file.path file.displaced
  let moved ← (touch fun home => home.promoteStaged file).attempt
  match moved with
  | .ok () => touch fun home => home.removeRollout file.archived file.displaced
  | .error error => do
      let _ ← (touch fun home => home.renameRollout file.archived file.displaced file.path).attempt
      Prog.fail error

def updateDatabaseProviders : List String → Sync Nat
  | [] => pure 0
  | path :: rest => do
      let updated ← Prog.access refusal fun home =>
        .ok (((home.databases.filter fun database => database.path = path).map (countDatabase provider)).sum,
          home.updateDatabaseAt provider path)
      let more ← updateDatabaseProviders rest
      return updated + more

-- The second half of a run: the databases, then what is derived from them.
def applyDatabases (plan : SyncPlan) : Sync Nat := do
  writeJournal operationId .applyingDatabases
  checkCancelled
  let updated ← updateDatabaseProviders provider plan.databases
  let catalogs ← inspect fun home => .ok home.catalogs
  Prog.forEach catalogs fun path => touch fun home => home.forgetCatalogAt path
  -- The index of sources is dropped as well.
  fallible
  writeJournal operationId .validating
  inspect fun home => validateProviderSync env provider home
  return updated

def applyPlan (plan : SyncPlan) : Sync (List ProviderSyncFilePlan × Nat) :=
  if plan.targets.isEmpty && plan.databaseRowCount = 0 then pure ([], 0)
  else do
    let files ← stageAll lib env operationId provider 0 plan.targets
    checkCancelled
    writeJournal operationId .applyingFiles
    Prog.forEach files fun file => do
      checkCancelled
      replaceWithStaged file
    let updated ← applyDatabases env operationId provider plan
    return (files, updated)

-- What cannot be removed stays.
def cleanUp (files : List ProviderSyncFilePlan) : Sync Unit := do
  Prog.forEach files fun file => do
    let _ ← (touch fun home => home.removeRollout file.archived file.displaced).attempt
    let _ ← (touch fun home => home.removeStaged file.staged).attempt
    pure ()
  let _ ← (touch fun home => .ok (home.removeStagingDir operationId)).attempt
  pure ()

def runPlan (plan : SyncPlan) : Sync ProviderSyncReport := do
  let outcome ← (applyPlan lib env operationId provider plan).attempt
  match outcome with
  | .error error => do
      writeJournal operationId .failed
      let _ ← (touch fun home => .ok (home.removeStagingDir operationId)).attempt
      Prog.fail error
  | .ok applied => do
      writeJournal operationId .completed
      cleanUp operationId applied.1
      return { operationId := operationId, provider := provider, rolloutCount := applied.1.length, databaseRowCount := applied.2 }

def synchronizeLocalProvider (confirmedCodexClosed : Bool) : Sync ProviderSyncReport := do
  Prog.ofExcept (ensure (confirmedCodexClosed = true) "provider synchronization requires confirmation that Codex is fully closed")
  let provider ← inspect fun home => detectConfiguredProvider home.config
  let _ ← Prog.ofExcept (validateProviderId provider)
  let plan ← inspect fun home => planSync env provider home
  createDirAll
  createDirAll
  writeJournal operationId .preparing
  runPlan lib env operationId provider plan

end Program

end SessionSync.Provider
