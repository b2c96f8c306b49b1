import SessionSync.Server.Serve

set_option autoImplicit false

namespace SessionSync.Server

open SessionSync.Core Checked Storage

variable (env : ServerEnv)

abbrev ExclusiveWp {ε α : Type} (prog : Prog ServerState ε α) (post : α → ServerState → Prop) (state : ServerState) : Prop :=
  prog.Wp (ServerInv env) ExclusiveRely (serverGuar env .exclusive) (Prog.okay post) state

theorem exclusive_idle (state : ServerState) (inv : ServerInv env state) : serverGuar env .exclusive state state :=
  ⟨inv, known_refl state, files_kept_loss env state state fun _ _ stored => stored⟩

theorem exclusive_seq {ε α β : Type} (prog : Prog ServerState ε α) (next : α → Prog ServerState ε β)
    (post : β → ServerState → Prop) (state : ServerState)
    (first : ExclusiveWp env prog (fun value seen => ExclusiveWp env (next value) post seen) state) :
    ExclusiveWp env (prog >>= next) post state := Prog.wp_seq exclusive_refl prog next post state first

-- Nothing that the invariant reads changes: the queue, the object rows, the quarantine.
theorem quiet_guar (state after : ServerState) (moved : ExclusiveRely state after) (history : HistoryInv after.db)
    (inv : ServerInv env state) : serverGuar env .exclusive state after := by
  refine ⟨exclusive_inv env state after moved history inv, exclusive_known state after moved, ?_⟩
  apply files_kept_loss
  intro key bytes stored
  rw [moved.files]
  exact stored

-- A call that protects no more revisions than before keeps the invariant.
theorem shrink_guar (state : ServerState) (db : Database) (history : HistoryInv db) (edges : db.objectEdges = state.db.objectEdges)
    (known : ∀ (id : String) (row : RevisionRow), state.db.revisions[id]? = some row → ∃ later, db.revisions[id]? = some later)
    (shrinks : ∀ id, isProtected db state.clock id = true →
      isProtected state.db state.clock id = true ∧ db.revisionRoots[id]? = state.db.revisionRoots[id]?)
    (inv : ServerInv env state) : serverGuar env .exclusive state { state with db := db } := by
  refine ⟨⟨history, fun owner target edge => ?_, fun id shielded => ?_, fun id shielded => ?_, inv.sizes⟩, known, ?_⟩
  · rw [edges] at edge
    exact inv.owners owner target edge
  · obtain ⟨before, same⟩ := shrinks id shielded
    rw [same]
    exact inv.rooted id before
  · rw [edges]
    exact inv.intact id (shrinks id shielded).1
  · exact files_kept_loss env state _ fun _ _ stored => stored

theorem truncate_guar (namespaceId : Uuid) (expectedHead : Option String) (expectedEpoch : UInt64) (newHead : Option String)
    (operationId : Uuid) (state : ServerState) (db : Database) (operation : HistoryTrashOperation)
    (run : Server.truncateHistory namespaceId expectedHead expectedEpoch newHead operationId state.clock state.db =
      .ok (db, operation))
    (inv : ServerInv env state) : serverGuar env .exclusive state { state with db := db } := by
  obtain ⟨edges, head, epoch, removed, row, effect⟩ := truncate_history_effect _ _ _ _ _ _ state.db db operation run
  refine shrink_guar env state db (truncate_keeps _ _ _ _ _ _ _ _ _ inv.history effect) edges (fun id row stored => ?_)
    (fun id shielded => ⟨?_, ?_⟩) inv
  · exact ⟨_, retag_stored state.db db _ (truncate_lookup _ _ _ _ _ _ _ _ _ effect) id row stored⟩
  · exact truncate_protected state.db db _ _ _ _ _ _ _ inv.history effect state.clock id shielded
  · rw [effect.roots]

theorem restore_guar (namespaceId operationId : Uuid) (expectedHead : Option String) (expectedEpoch : UInt64)
    (state : ServerState) (db : Database) (restored : HistoryTrashOperation)
    (run : Server.restoreHistoryTrash namespaceId operationId expectedHead expectedEpoch state.clock state.db = .ok (db, restored))
    (inv : ServerInv env state) : serverGuar env .exclusive state { state with db := db } := by
  obtain ⟨edges, head, epoch, operation, unexpired, effect⟩ := restore_history_trash_effect _ _ _ _ _ state.db db restored run
  refine shrink_guar env state db (restore_keeps _ _ _ _ _ _ _ inv.history effect) edges (fun id row stored => ?_)
    (fun id shielded => ⟨?_, ?_⟩) inv
  · exact ⟨_, retag_stored state.db db (fun _ => reactivate operationId) (restore_lookup _ _ _ _ _ _ _ effect) id row stored⟩
  · exact restore_protected state.db db _ _ _ _ _ inv.history effect state.clock unexpired id shielded
  · rw [effect.roots]

theorem purge_guar (namespaceId : Uuid) (expected plan : HistoryTrashPurgePlan) (operationId : Uuid) (ids : Nat → Uuid)
    (state : ServerState) (db : Database) (entries : List GcQueueEntry)
    (run : commitHistoryTrashPurge namespaceId expected operationId ids state.clock state.db = .ok (db, plan, entries))
    (inv : ServerInv env state) : serverGuar env .exclusive state { state with db := db } := by
  obtain ⟨edges, effect⟩ := commit_purge_effect namespaceId expected plan operationId ids state.clock state.db db entries run
  refine shrink_guar env state db (purge_keeps _ _ _ _ inv.history effect) edges (fun id row stored => ?_)
    (fun id shielded => ?_) inv
  · exact ⟨_, retag_stored state.db db (fun _ => purgeSelected namespaceId plan.operationIds)
      (purge_lookup _ _ _ _ effect) id row stored⟩
  · exact purge_protected state.db db namespaceId plan.operationIds effect state.clock id shielded

theorem quiet_db_guar (state : ServerState) (db : Database) (revisions : db.revisions = state.db.revisions)
    (roots : db.revisionRoots = state.db.revisionRoots) (operations : db.trashOperations = state.db.trashOperations)
    (namespaces : db.namespaces = state.db.namespaces) (edges : db.objectEdges = state.db.objectEdges) (inv : ServerInv env state) :
    serverGuar env .exclusive state { state with db := db } := by
  refine quiet_guar env state _ ⟨revisions, roots, operations, edges, rfl, le_refl _⟩ ?_ inv
  exact quiet_keeps state.db db inv.history ⟨fun id => by rw [getHeadState, getHeadState, namespaces], revisions, operations, roots⟩

-- A key that no protected graph holds.
def Unreached (key : ObjectKey) (state : ServerState) : Prop :=
  ∀ id root objects, isProtected state.db state.clock id = true → rootObjectsV4 env state.files id = .ok (root, objects) →
    key ∉ objects.map StorageObjectRef.key

theorem unreached_moved (key : ObjectKey) (state after : ServerState) (moved : ExclusiveRely state after)
    (unreached : Unreached env key state) : Unreached env key after := by
  intro id root objects shielded run
  rw [moved.files] at run
  exact unreached id root objects (exclusive_protected state after moved id shielded) run

theorem unreached_of_query (object : StorageObjectRef) (state : ServerState) (inv : ServerInv env state)
    (answer : gcObjectIsReachable state.db state.clock object = false) : Unreached env object.key state := by
  intro id root objects shielded run member
  obtain ⟨row, rooted⟩ := inv.rooted id shielded
  obtain ⟨name, _⟩ := inv.history.roots id row rooted
  obtain ⟨other, found, ran, held⟩ := inv.intact id shielded
  rw [run] at ran
  cases ran
  have inside := (closure_exact env state.files state.db.objectEdges id root objects run held object.key).mpr member
  obtain ⟨start, only, path⟩ := (Closure.mem_closure _ _ _).mp inside
  cases List.mem_singleton.mp only
  have listed : (StorageObjectKind.revisionRoot, id) ∈ protectedRoots state.db state.clock := by
    refine List.mem_map.mpr ⟨(id, row), List.mem_filter.mpr ⟨?_, shielded⟩, by rw [name]⟩
    exact Std.ExtTreeMap.mem_toList_iff_getElem?_eq_some.mpr rooted
  have reached : object.key ∈ reachableObjects state.db state.clock := (Closure.mem_closure _ _ _).mpr ⟨_, listed, path⟩
  rw [gcObjectIsReachable, Std.ExtTreeSet.contains_iff_mem.mpr reached] at answer
  cases answer

section Removal

variable (key : ObjectKey) (state : ServerState) (unreached : Unreached env key state)

theorem erase_keeps (files : Std.ExtTreeMap ObjectKey Bytes) (other : ObjectKey) (different : other ≠ key) :
    Keeps files (files.erase key) other := by
  intro bytes stored
  rw [Keyed.lookup_erase, if_neg different]
  exact stored

theorem erase_subset (files : Std.ExtTreeMap ObjectKey Bytes) (other : ObjectKey) : Keeps (files.erase key) files other := by
  intro bytes stored
  rw [Keyed.lookup_erase] at stored
  split at stored
  · cases stored
  · exact stored

include unreached

-- The graph of a protected revision does not need the object that goes.
theorem erase_intact (id : String) (shielded : isProtected state.db state.clock id = true)
    (intact : Intact env state.files state.db.objectEdges id) : Intact env (state.files.erase key) state.db.objectEdges id := by
  obtain ⟨root, objects, run, held⟩ := intact
  have outside := unreached id root objects shielded run
  have kept : ∀ other, other ∈ objects.map StorageObjectRef.key → Keeps state.files (state.files.erase key) other := by
    intro other member
    apply erase_keeps
    intro same
    exact outside (same ▸ member)
  refine ⟨root, objects, root_objects_keeps env _ _ id root objects (fun object member => kept _ (List.mem_map_of_mem member)) run,
    ?_⟩
  intro object member
  obtain ⟨keys, names, rest⟩ := held object member
  obtain ⟨own, same, closed⟩ := root_objects_closed env state.files id root objects run object member
  rw [names] at same
  cases same
  refine ⟨keys, ?_, rest⟩
  exact object_targets_keeps env _ _ object.key keys (kept _ (List.mem_map_of_mem member))
    (fun named inside _ => kept _ (closed named inside))
    names

theorem erase_guar (gcFiles : Std.ExtTreeMap (Uuid × ObjectKey) Bytes) (inv : ServerInv env state) :
    serverGuar env .exclusive state { state with files := state.files.erase key, gcFiles := gcFiles } := by
  refine ⟨⟨inv.history, inv.owners, inv.rooted, fun id shielded => ?_, fun other bytes stored => ?_⟩, known_refl state, ?_⟩
  · exact erase_intact env key state unreached id shielded (inv.intact id shielded)
  · exact inv.sizes other bytes (erase_subset key state.files other bytes stored)
  · intro other stored gone id root objects shielded run
    have same : other = key := by
      by_contra different
      rw [Std.ExtTreeMap.mem_erase, ne_eq, Std.LawfulEqOrd.compare_eq_iff_eq] at gone
      exact gone ⟨fun same => different same.symm, stored⟩
    rw [same]
    exact unreached id root objects shielded run

theorem erase_unreached (gcFiles : Std.ExtTreeMap (Uuid × ObjectKey) Bytes) :
    Unreached env key { state with files := state.files.erase key, gcFiles := gcFiles } := by
  intro id root objects shielded run
  exact unreached id root objects shielded
    (root_objects_keeps env _ _ id root objects (fun object _ => erase_subset key state.files _) run)

theorem complete_intact (entry : GcQueueEntry) (own : entry.object.key = key) (now : Nanos) (id : String)
    (shielded : isProtected state.db state.clock id = true) (intact : Intact env state.files state.db.objectEdges id) :
    Intact env state.files (Server.completeGcEntry entry now state.db).objectEdges id := by
  obtain ⟨root, objects, run, held⟩ := intact
  have outside := unreached id root objects shielded run
  refine ⟨root, objects, run, fun object member => ?_⟩
  obtain ⟨keys, names, distinct, owns⟩ := held object member
  obtain ⟨found, same, closed⟩ := root_objects_closed env state.files id root objects run object member
  rw [names] at same
  cases same
  refine ⟨keys, names, distinct, fun target => ?_⟩
  rw [Server.completeGcEntry, Keyed.mem_filter, owns, Bool.and_eq_true, decide_eq_true_eq, decide_eq_true_eq, own]
  refine and_iff_left_of_imp fun inside => ⟨fun same => ?_, fun same => ?_⟩
  · exact outside (same ▸ List.mem_map_of_mem member)
  · exact outside (same ▸ closed target inside)

theorem complete_guar (entry : GcQueueEntry) (own : entry.object.key = key) (now : Nanos) (inv : ServerInv env state) :
    serverGuar env .exclusive state { state with db := Server.completeGcEntry entry now state.db } := by
  refine ⟨⟨?_, fun owner target edge => ?_, inv.rooted, fun id shielded => ?_, inv.sizes⟩, known_refl state, ?_⟩
  · exact quiet_keeps state.db _ inv.history ⟨fun _ => rfl, rfl, rfl, rfl⟩
  · rw [Server.completeGcEntry, Keyed.mem_filter] at edge
    exact inv.owners owner target edge.1
  · exact complete_intact env key state unreached entry own now id shielded (inv.intact id shielded)
  · exact files_kept_loss env state _ fun _ _ stored => stored

end Removal

end SessionSync.Server
