import SessionSync.Sync.Compose
import SessionSync.Tracking.Store

set_option autoImplicit false

namespace SessionSync.Sync

open SessionSync.Core Checked Storage Tracking

structure NamespaceHeadState where
  head : Option String
  namespaceEpoch : UInt64
deriving DecidableEq, Repr

structure PreparedWorkspace where
  threads : List ThreadBundle
  contents : Contents
  warningCount : UInt64

abbrev Served := RevisionRootV4 × List ThreadBundle

-- What a push finds: its home, its tracking record and the server's answers.
structure PushInput where
  remoteId : Uuid
  namespaceId : Uuid
  codexClosed : Except String Unit
  info : Except String Unit
  active : Except String (Option ActiveNamespaceBinding)
  record : Except String (Option TrackingRecord)
  headState : Except String NamespaceHeadState
  mapper : String → Option String
  -- A scan of the whole workspace, and the objects that it installs.
  scan : Except String PreparedWorkspace
  install : Files → Except String Files
  snapshotId : String
  createdAt : String
  revisionCreatedAt : String
  -- A revision as it is served, and the objects that its download installs.
  served : String → Except String Served
  fetch : String → Files → Except String Files
  upload : Except String Unit
  cancelled : Except String Unit

inductive PushDecision where
  | noChanges
  | commit (root : RevisionRootV4)
deriving DecidableEq, Repr

variable (codec : LocalCodec) (input : PushInput)

def integratedHead (record : Option TrackingRecord) : Option String := record.bind TrackingRecord.integratedHead

def ensureActive : Option ActiveNamespaceBinding → Except String Unit
  | some active => ensure (active.remoteId = input.remoteId ∧ active.namespaceId = input.namespaceId)
      "the selected namespace is not active; switch namespaces before pushing"
  | none => .ok ()

def ensureEpoch (reason : TrackingRecord → String) (record : Option TrackingRecord) (state : NamespaceHeadState) :
    Except String Unit :=
  match record with
  | some record => ensure (record.remoteEpoch = state.namespaceEpoch) (reason record)
  | none => .ok ()

def epochChanged (state : NamespaceHeadState) (record : TrackingRecord) : String :=
  "remote history epoch changed from " ++ toString record.remoteEpoch.toNat ++ " to " ++ toString state.namespaceEpoch.toNat ++
    "; use an exact namespace switch to coordinate the rewritten history"

-- create_local_snapshot_with_control.
def createLocalSnapshot (repository : LocalRepository) : Except String (String × LocalRepository) := do
  let prepared ← input.scan
  let files ← input.install repository.files
  let snapshot : LocalSnapshot :=
    { schemaVersion := localSnapshotSchemaVersion, snapshotId := input.snapshotId, createdAt := input.createdAt,
      threads := prepared.threads, warningCount := prepared.warningCount }
  input.cancelled
  let repository ← storeSnapshot codec { repository with files := files } snapshot prepared.contents
  ensure (prepared.warningCount = 0)
    ("push is blocked because the local snapshot contains " ++ toString prepared.warningCount.toNat ++ " warning(s)")
  return (input.snapshotId, repository)

def chooseManifest (selected : Option String) (repository : LocalRepository) : Except String (String × LocalRepository) :=
  match selected with
  | some manifest => .ok (manifest, repository)
  | none => createLocalSnapshot codec input repository

-- Whether the head of the server holds the same threads already.
def sameAsHead (snapshot : LocalSnapshot) (head : Option String) (files : Files) : Except String (Bool × Files) :=
  match head with
  | none => .ok (false, files)
  | some head => do
      let current ← input.served head
      let files ← input.fetch head files
      validateRevisionRootNamespace current.1 input.namespaceId
      let equal ← threadStatesEqual codec.lib current.2 snapshot.threads
      return (equal && decide (current.1.warningCount = snapshot.warningCount), files)

def commitRoot (record : Option TrackingRecord) (state : NamespaceHeadState) (root : RevisionRootV4) :
    Except String PushDecision := do
  ensure (state.head = integratedHead record) "remote namespace has advanced; pull before pushing"
  input.upload
  input.cancelled
  return .commit root

def decidePush (same : Bool) (record : Option TrackingRecord) (state : NamespaceHeadState) (root : RevisionRootV4) :
    Except String PushDecision :=
  if same then .ok .noChanges else commitRoot input record state root

def pushNamespaceWithSnapshot (selected : Option String) (repository : LocalRepository) :
    Except String (PushDecision × LocalRepository) := do
  input.codexClosed
  input.info
  let active ← input.active
  ensureActive input active
  let record ← input.record
  let state ← input.headState
  ensureEpoch (epochChanged state) record state
  let (manifest, repository) ← chooseManifest codec input selected repository
  let (snapshot, contents) ← loadSnapshot codec repository manifest
  ensure (snapshot.warningCount = 0)
    ("push is blocked because the selected snapshot contains " ++ toString snapshot.warningCount.toNat ++ " warning(s)")
  let snapshot := projectWorkspaceIdentities (canonicalizeSnapshot input.mapper snapshot)
  let (root, files) ← snapshotToRevisionRootV4 codec.lib repository.files snapshot input.namespaceId state.head contents
  let _ ← root.revisionId codec.lib
  let (same, files) ← sameAsHead codec input snapshot state.head files
  let decision ← decidePush input same record state root
  return (decision, { repository with files := files })

-- start_latest_snapshot_push_job: the newest item of the list, whatever it is.
def latestManifest (repository : LocalRepository) : Except String LocalSnapshotListItem := do
  let items ← listLocalSnapshots codec repository
  found items.head? "没有可推送的本地快照，请先创建 Snapshot"

def pushLatestSnapshotNamespace (repository : LocalRepository) : Except String (PushDecision × LocalRepository) := do
  let latest ← latestManifest codec repository
  pushNamespaceWithSnapshot codec input (some latest.manifest) repository

def stagedRefs (contents : Contents) : List ChangeCandidate → Files → Except String (List ThreadRefV4 × Files)
  | [], files => .ok ([], files)
  | candidate :: rest, files => do
      let thread ← found candidate.localThread "staged local thread is missing"
      let content ← found contents[candidate.threadId]? "staged local content reference is missing"
      let (reference, files) ← storeDescriptor codec.lib files thread content
      let (references, files) ← stagedRefs contents rest files
      return (reference :: references, files)

def stagedCandidates (plan : ChangePlan) (staged : StagedChangeSet) (deleted : Bool) : List ChangeCandidate :=
  plan.changed.filter fun candidate => decide (candidate.kind = .deleted) = deleted &&
    staged.selectedThreadIds.contains candidate.threadId

def stagedThreads : List ChangeCandidate → Except String (List ThreadBundle)
  | [] => .ok []
  | candidate :: rest => do
      let thread ← found candidate.localThread "staged local thread is missing"
      let threads ← stagedThreads rest
      return thread :: threads

def selectedContents (contents : Contents) : List ThreadBundle → Contents → Except String Contents
  | [], selected => .ok selected
  | thread :: rest, selected => do
      let content ← found contents[thread.threadId]? "staged local content reference is missing"
      selectedContents contents rest (selected.insert thread.threadId content)

-- The snapshot that keeps what was staged before it is published.
def storeStagedSelectionSnapshot (plan : ChangePlan) (staged : StagedChangeSet) (contents : Contents) (repository : LocalRepository) :
    Except String LocalRepository := do
  let threads ← stagedThreads (stagedCandidates plan staged false)
  let selected ← selectedContents contents threads ∅
  let snapshot : LocalSnapshot :=
    { schemaVersion := localSnapshotSchemaVersion, snapshotId := input.snapshotId, createdAt := input.createdAt,
      threads := threads, warningCount := 0 }
  let repository ← storeSnapshot codec repository snapshot selected
  let metadata : SnapshotMetadata :=
    { description := "选择推送快照", tags := ["selection", "push"], pinned := false, automatic := true, scope := .selection,
      baseRevisionId := plan.baseRevisionId, selectedThreadIds := staged.selectedThreadIds.toList,
      deletedThreadIds := (stagedCandidates plan staged true).map ChangeCandidate.threadId }
  let (repository, _) ← updateSnapshotMetadata codec repository input.snapshotId metadata
  return repository

-- A revision that may be there or not, with what a download of it installs.
def servedHead (head : Option String) (files : Files) : Except String (Option Served × Files) :=
  match head with
  | none => .ok (none, files)
  | some head => do
      let served ← input.served head
      let files ← input.fetch head files
      return (some served, files)

def ensureServed (served : Option Served) : Except String Unit :=
  match served with
  | some served => validateRevisionRootNamespace served.1 input.namespaceId
  | none => .ok ()

def baseThreads (served : Option Served) : List ThreadBundle := (served.map Prod.snd).getD []

def headRefs (served : Option Served) : List ThreadRefV4 := (served.map fun served => served.1.threads).getD []

-- The workspace in the form in which it is compared with a revision.
def stagingWorkspace (prepared : PreparedWorkspace) : LocalSnapshot :=
  canonicalizeSnapshotProviderMetadata (projectWorkspaceIdentities (canonicalizeSnapshot input.mapper
    { schemaVersion := localSnapshotSchemaVersion, snapshotId := "staging-push", createdAt := input.createdAt,
      threads := prepared.threads, warningCount := prepared.warningCount }))

def pushStagedNamespace (selectedThreadIds : List String) (expectedBase : Option String) (repository : LocalRepository) :
    Except String (PushDecision × LocalRepository) := do
  input.codexClosed
  input.info
  ensure (selectedThreadIds ≠ []) "select at least one local change before pushing"
  let active ← input.active
  ensureActive input active
  let record ← input.record
  ensure (integratedHead record = expectedBase) "the staging plan is stale; regenerate it before pushing"
  let state ← input.headState
  ensureEpoch (fun _ => "remote history epoch changed; regenerate the staging plan") record state
  ensure (state.head = integratedHead record) "remote namespace changed after staging; pull or resolve conflicts before pushing"
  let (base, files) ← servedHead input (integratedHead record) repository.files
  ensureServed input base
  let prepared ← input.scan
  let files ← input.install files
  ensure (prepared.warningCount = 0)
    ("selected push is blocked because the local workspace contains " ++ toString prepared.warningCount.toNat ++ " warning(s)")
  let plan ← buildChangePlan codec.lib (integratedHead record) (baseThreads base) (stagingWorkspace input prepared).threads
  let staged ← StagedChangeSet.fromSelected plan selectedThreadIds
  let repository ← storeStagedSelectionSnapshot codec input plan staged prepared.contents { repository with files := files }
  let (references, files) ← stagedRefs codec prepared.contents (stagedCandidates plan staged false) repository.files
  let (remote, files) ← servedHead input state.head files
  let threads ← composeStagedThreadRefs (headRefs remote) plan staged references
  let root : RevisionRootV4 :=
    { schemaVersion := 4, normalizationSchemaVersion := 1, namespaceId := input.namespaceId, parentRevision := state.head,
      createdAt := input.revisionCreatedAt, threads := threads, warningCount := 0 }
  let (_, files) ← storeRevisionRoot codec.lib files root
  let _ ← root.revisionId codec.lib
  input.upload
  input.cancelled
  return (.commit root, { repository with files := files })

inductive Push where
  | namespace_
  | staged (selectedThreadIds : List String) (expectedBase : Option String)
  | latest
deriving DecidableEq, Repr

def Push.run : Push → LocalRepository → Except String (PushDecision × LocalRepository)
  | .namespace_ => pushNamespaceWithSnapshot codec input none
  | .staged selectedThreadIds expectedBase => pushStagedNamespace codec input selectedThreadIds expectedBase
  | .latest => pushLatestSnapshotNamespace codec input

end SessionSync.Sync
