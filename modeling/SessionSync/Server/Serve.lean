import SessionSync.Server.Intact
import SessionSync.Server.Protected
import SessionSync.Lib.Gate

set_option autoImplicit false

namespace SessionSync.Server

open SessionSync.Core Checked Storage

inductive Reply where
  | resumed
  | created (namespaceId : Uuid)
  | stored (created : Bool)
  | committed (response : RevisionCommitResponseV4)
  | truncated (operation : HistoryTrashOperation)
  | restored (operation : HistoryTrashOperation)
  | purged (response : PurgeHistoryTrashResponse)
  | collected (response : ServerGcQuarantineResponse)
deriving DecidableEq, Repr

-- The writing routes with the side of gc_gate each of them takes. Ids that a handler
-- draws are arguments with no condition on them.
inductive Request (env : ServerEnv) (debug : Option String → String) : Gate.Mode → Handler Reply → Prop where
  | createNamespace (displayName : String) (id : Uuid) :
      Request env debug .free (Reply.created <$> Api.createNamespace displayName id)
  | renameNamespace (namespaceId : Uuid) (displayName : String) :
      Request env debug .free (Reply.created <$> Api.renameNamespace namespaceId displayName)
  | putTypedObject (key : ObjectKey) (expectedLength : UInt64) (stream : List Bytes) :
      Request env debug .shared (Reply.stored <$> Server.putTypedObject env key expectedLength stream)
  | commitRevisionRootV4 (namespaceId : Uuid) (payload : RevisionCommitRequestV4) :
      Request env debug .shared (Reply.committed <$> Server.commitRevisionRootV4 env debug namespaceId payload)
  | truncateHistory (namespaceId : Uuid) (expectedHead : Option String) (expectedEpoch : UInt64) (newHead : Option String)
      (operationId : Uuid) :
      Request env debug .exclusive
        (Reply.truncated <$> Api.truncateHistory namespaceId expectedHead expectedEpoch newHead operationId)
  | restoreHistoryTrash (namespaceId operationId : Uuid) (expectedHead : Option String) (expectedEpoch : UInt64) :
      Request env debug .exclusive (Reply.restored <$> Api.restoreHistoryTrash namespaceId operationId expectedHead expectedEpoch)
  | purgeHistoryTrash (namespaceId : Uuid) (operationIds : List Uuid) (purgeAll : Bool) (operationId : Uuid) (ids : Nat → Uuid) :
      Request env debug .exclusive (Reply.purged <$> Server.purgeHistoryTrash namespaceId operationIds purgeAll operationId ids)
  | quarantineServerGc (planFingerprint : String) (operationId : Uuid) (ids : Nat → Uuid) :
      Request env debug .exclusive (Reply.collected <$> Server.quarantineServerGc env planFingerprint operationId ids)

def ClockTick (state after : ServerState) : Prop := ∃ later, state.clock ≤ later ∧ after = { state with clock := later }

-- A start, the first or one after a crash, resumes the queue before it serves.
def server (env : ServerEnv) (debug : Option String → String) : Gate.System ServerState HttpError Reply where
  request := Request env debug
  boot := (fun _ => Reply.resumed) <$> resumePendingGc
  drift := ClockTick

def ServerState.initialized (now : Nanos) : ServerState := ⟨Database.initialized, ∅, ∅, now⟩

def isStructured : StorageObjectKind → Bool
  | .whole | .chunk => false
  | .chunkManifest | .thread | .revisionRoot => true

structure ServerInv (env : ServerEnv) (state : ServerState) : Prop where
  history : HistoryInv state.db
  owners : ∀ owner target, (owner, target) ∈ state.db.objectEdges → isStructured owner.1 = true
  rooted : ∀ id, isProtected state.db state.clock id = true → ∃ (root : RevisionRootRow), state.db.revisionRoots[id]? = some root
  intact : ∀ id, isProtected state.db state.clock id = true → Intact env state.files state.db.objectEdges id
  sizes : ∀ (key : ObjectKey) (bytes : Bytes), state.files[key]? = some bytes → bytes.length < 2 ^ 64

def Known (state after : ServerState) : Prop :=
  ∀ (id : String) (row : RevisionRow), state.db.revisions[id]? = some row → ∃ later, after.db.revisions[id]? = some later

-- What a request under the shared lock may find changed: files come, none goes, and
-- the edges of an object that can be read do not leave what its content says.
structure SharedRely (env : ServerEnv) (state after : ServerState) : Prop where
  known : Known state after
  files : ∀ key, Keeps state.files after.files key
  edges : ∀ key keys, objectTargets env state.files key = .ok keys →
    Owns state.db.objectEdges key keys → Owns after.db.objectEdges key keys
  clock : state.clock ≤ after.clock

structure ExclusiveRely (state after : ServerState) : Prop where
  revisions : after.db.revisions = state.db.revisions
  roots : after.db.revisionRoots = state.db.revisionRoots
  operations : after.db.trashOperations = state.db.trashOperations
  edges : after.db.objectEdges = state.db.objectEdges
  files : after.files = state.files
  clock : state.clock ≤ after.clock

def serverRely (env : ServerEnv) : Gate.Mode → ServerState → ServerState → Prop
  | .free => Known
  | .shared => SharedRely env
  | .exclusive => ExclusiveRely

-- A file that goes is not in the graph of a protected revision.
def NoLoss (env : ServerEnv) (state after : ServerState) : Prop :=
  ∀ key, key ∈ state.files → key ∉ after.files → ∀ id root objects, isProtected state.db state.clock id = true →
    rootObjectsV4 env state.files id = .ok (root, objects) → key ∉ objects.map StorageObjectRef.key

structure ExclusiveGuar (env : ServerEnv) (state after : ServerState) : Prop where
  known : Known state after
  loss : NoLoss env state after

def serverGuar (env : ServerEnv) (mode : Gate.Mode) (state after : ServerState) : Prop :=
  ServerInv env after ∧
    match mode with
    | .free => ExclusiveRely state after
    | .shared => SharedRely env state after
    | .exclusive => ExclusiveGuar env state after

-- A commit that was reported as created is in the revision table for good.
def replyKept (reply : Reply) (state : ServerState) : Prop :=
  match reply with
  | .committed response => response.created = true → ∃ (row : RevisionRow), state.db.revisions[response.head]? = some row
  | _ => True

theorem wp_transaction {α : Type} {inv : ServerState → Prop} {rely guar : ServerState → ServerState → Prop}
    (run : Nanos → Database → Except MetadataError (Database × α)) (post : α → ServerState → Prop) (state : ServerState)
    (idle : ∀ seen, inv seen → guar seen seen)
    (commits : ∀ seen db value, rely state seen → inv seen → run seen.clock seen.db = .ok (db, value) →
      guar seen { seen with db := db } ∧ ∀ last, rely { seen with db := db } last → inv last → post value last) :
    (transaction run).Wp inv rely guar (Prog.okay post) state := by
  apply Prog.wp_transact _ post state idle
  intro seen value after moved kept ran
  cases outcome : run seen.clock seen.db with
  | error reason =>
      rw [outcome] at ran
      cases ran
  | ok pair =>
      rw [outcome] at ran
      cases ran
      exact commits seen pair.1 pair.2 moved kept outcome

theorem object_targets_keeps (env : ServerEnv) (files other : Std.ExtTreeMap ObjectKey Bytes) (key : ObjectKey)
    (keys : List ObjectKey) (own : Keeps files other key)
    (manifests : ∀ named ∈ keys, named.1 = .chunkManifest → Keeps files other named)
    (run : objectTargets env files key = .ok keys) : objectTargets env other key = .ok keys := by
  obtain ⟨kind, sha256⟩ := key
  cases kind with
  | whole => exact run
  | chunk => exact run
  | revisionRoot =>
      simp only [objectTargets, bind_ok] at run ⊢
      obtain ⟨found, read, same⟩ := run
      exact ⟨found, read_typed_json_keeps env files other _ _ _ _ own read, same⟩
  | chunkManifest =>
      simp only [objectTargets, bind_ok] at run ⊢
      obtain ⟨found, read, same⟩ := run
      exact ⟨found, read_typed_json_keeps env files other _ _ _ _ own read, same⟩
  | thread =>
      simp only [objectTargets, bind_ok] at run ⊢
      obtain ⟨found, read, run⟩ := run
      refine ⟨found, read_typed_json_keeps env files other _ _ _ _ own read, ?_⟩
      generalize found.1.contents = contents at run
      induction contents generalizing keys with
      | nil => exact run
      | cons content rest ih =>
          simp only [contentsKeys, bind_ok, pure_ok] at run ⊢
          obtain ⟨first, named, later, tail, rfl⟩ := run
          refine ⟨first, ?_, later, ih later (fun key member => manifests key (List.mem_append_right _ member)) tail, rfl⟩
          cases storage : content.storage with
          | whole sha256 =>
              simp only [contentKeys, storage] at named ⊢
              exact named
          | chunked sha256 =>
              simp only [contentKeys, storage, bind_ok, pure_ok] at named ⊢
              obtain ⟨⟨manifest, object⟩, found, rfl⟩ := named
              have name := read_typed_json_key env files _ _ _ _ _ found
              have kept := manifests object.key (List.mem_append_left _ List.mem_cons_self) (by rw [name])
              rw [name] at kept
              exact ⟨_, read_typed_json_keeps env files other _ _ _ _ kept found, rfl⟩

theorem held_keeps (env : ServerEnv) (files other : Std.ExtTreeMap ObjectKey Bytes) (edges later : Edges)
    (objects : List StorageObjectRef) (keeps : ∀ key, Keeps files other key)
    (owned : ∀ key keys, objectTargets env files key = .ok keys → Owns edges key keys → Owns later key keys)
    (held : Held env files edges objects) : Held env other later objects := by
  intro object member
  obtain ⟨keys, names, distinct, owns⟩ := held object member
  exact ⟨keys, object_targets_keeps env files other object.key keys (keeps _) (fun named _ _ => keeps named) names, distinct,
    owned object.key keys names owns⟩

theorem intact_shared (env : ServerEnv) (state after : ServerState) (moved : SharedRely env state after) (id : String)
    (intact : Intact env state.files state.db.objectEdges id) : Intact env after.files after.db.objectEdges id := by
  obtain ⟨root, objects, run, held⟩ := intact
  exact ⟨root, objects, root_objects_keeps env state.files after.files id root objects (fun object _ => moved.files object.key) run,
    held_keeps env _ _ _ _ objects moved.files moved.edges held⟩

theorem known_refl (state : ServerState) : Known state state := fun _ row stored => ⟨row, stored⟩

theorem known_trans (a b c : ServerState) (first : Known a b) (second : Known b c) : Known a c := by
  intro id row stored
  obtain ⟨mid, known⟩ := first id row stored
  exact second id mid known

theorem shared_refl (env : ServerEnv) (state : ServerState) : SharedRely env state state :=
  ⟨known_refl state, fun _ _ stored => stored, fun _ _ _ owns => owns, le_refl _⟩

theorem shared_trans (env : ServerEnv) (a b c : ServerState) (first : SharedRely env a b) (second : SharedRely env b c) :
    SharedRely env a c := by
  refine ⟨known_trans a b c first.known second.known, fun key bytes stored => second.files key bytes (first.files key bytes stored),
    fun key keys names owns => ?_, le_trans first.clock second.clock⟩
  have later := object_targets_keeps env a.files b.files key keys (first.files key) (fun named _ _ => first.files named) names
  exact second.edges key keys later (first.edges key keys names owns)

theorem exclusive_refl (state : ServerState) : ExclusiveRely state state := ⟨rfl, rfl, rfl, rfl, rfl, le_refl _⟩

theorem exclusive_trans (a b c : ServerState) (first : ExclusiveRely a b) (second : ExclusiveRely b c) : ExclusiveRely a c :=
  ⟨second.revisions.trans first.revisions, second.roots.trans first.roots, second.operations.trans first.operations,
    second.edges.trans first.edges, second.files.trans first.files, le_trans first.clock second.clock⟩

theorem exclusive_known (state after : ServerState) (moved : ExclusiveRely state after) : Known state after := by
  intro id row stored
  exact ⟨row, by rw [moved.revisions, stored]⟩

theorem exclusive_shared (env : ServerEnv) (state after : ServerState) (moved : ExclusiveRely state after) :
    SharedRely env state after := by
  refine ⟨exclusive_known state after moved, fun key bytes stored => ?_, fun key keys _ owns => ?_, moved.clock⟩
  · rw [moved.files]
    exact stored
  · rw [moved.edges]
    exact owns

theorem files_kept_loss (env : ServerEnv) (state after : ServerState) (files : ∀ key, Keeps state.files after.files key) :
    NoLoss env state after := by
  intro key stored gone
  rw [Std.ExtTreeMap.mem_iff_isSome_getElem?, Option.isSome_iff_exists] at stored
  obtain ⟨bytes, stored⟩ := stored
  rw [Std.ExtTreeMap.mem_iff_isSome_getElem?, files key bytes stored] at gone
  exact absurd rfl gone

-- Protection can only have ended: the clock moved on and the tables are the same.
theorem exclusive_protected (state after : ServerState) (moved : ExclusiveRely state after) (id : String)
    (shielded : isProtected after.db after.clock id = true) : isProtected state.db state.clock id = true := by
  apply protected_earlier state.db state.clock after.clock moved.clock id
  rw [← protected_tables state.db after.db moved.revisions moved.operations]
  exact shielded

theorem exclusive_inv (env : ServerEnv) (state after : ServerState) (moved : ExclusiveRely state after)
    (history : HistoryInv after.db) (inv : ServerInv env state) : ServerInv env after := by
  refine ⟨history, fun owner target edge => ?_, fun id shielded => ?_, fun id shielded => ?_, fun key bytes stored => ?_⟩
  · rw [moved.edges] at edge
    exact inv.owners owner target edge
  · rw [moved.roots]
    exact inv.rooted id (exclusive_protected state after moved id shielded)
  · rw [moved.edges, moved.files]
    exact inv.intact id (exclusive_protected state after moved id shielded)
  · rw [moved.files] at stored
    exact inv.sizes key bytes stored

theorem initialized_server_inv (env : ServerEnv) (now : Nanos) : ServerInv env (ServerState.initialized now) := by
  have nothing : ∀ id, isProtected (ServerState.initialized now).db (ServerState.initialized now).clock id ≠ true := by
    intro id shielded
    obtain ⟨row, stored, _⟩ := (is_protected_iff _ _ _).mp shielded
    rw [ServerState.initialized, Database.initialized, Std.ExtTreeMap.getElem?_empty] at stored
    cases stored
  refine ⟨initialized_inv, fun owner target edge => ?_, fun id shielded => absurd shielded (nothing id),
    fun id shielded => absurd shielded (nothing id), fun key bytes stored => ?_⟩
  · exact absurd edge Std.ExtTreeSet.not_mem_empty
  · rw [ServerState.initialized, Std.ExtTreeMap.getElem?_empty] at stored
    cases stored

end SessionSync.Server
