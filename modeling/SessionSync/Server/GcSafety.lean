import SessionSync.Server.ServeCommit
import SessionSync.Server.ServeCollect
import SessionSync.Server.GraphSound
import SessionSync.Server.FirstCommit

set_option autoImplicit false

namespace SessionSync.Server

open SessionSync.Core Checked Storage

variable (env : ServerEnv) (debug : Option String → String)

theorem tick_exclusive (state after : ServerState) (moved : ClockTick state after) : ExclusiveRely state after := by
  obtain ⟨later, order, rfl⟩ := moved
  exact ⟨rfl, rfl, rfl, rfl, rfl, order⟩

theorem rely_refl (mode : Gate.Mode) (state : ServerState) : serverRely env mode state state := by
  cases mode with
  | free => exact known_refl state
  | shared => exact shared_refl env state
  | exclusive => exact exclusive_refl state

theorem rely_trans (mode : Gate.Mode) (a b c : ServerState) (first : serverRely env mode a b) (second : serverRely env mode b c) :
    serverRely env mode a c := by
  cases mode with
  | free => exact known_trans a b c first second
  | shared => exact shared_trans env a b c first second
  | exclusive => exact exclusive_trans a b c first second

-- What the lock lets run beside a request is what the request relies on.
theorem exclusive_rely (mode : Gate.Mode) (state after : ServerState) (moved : ExclusiveRely state after) :
    serverRely env mode state after := by
  cases mode with
  | free => exact exclusive_known state after moved
  | shared => exact exclusive_shared env state after moved
  | exclusive => exact moved

theorem guar_rely (mode other : Gate.Mode) (state after : ServerState) (beside : mode.together other)
    (keeps : serverGuar env mode state after) : serverRely env other state after := by
  cases mode with
  | free => exact exclusive_rely env other state after keeps.2
  | shared =>
      cases other with
      | free => exact SharedRely.known keeps.2
      | shared => exact keeps.2
      | exclusive => exact beside.elim
  | exclusive =>
      cases other with
      | free => exact ExclusiveGuar.known keeps.2
      | shared => exact beside.elim
      | exclusive => exact beside.elim

theorem reply_kept (reply : Reply) (state after : ServerState) (moved : Known state after) (kept : replyKept reply state) :
    replyKept reply after := by
  cases reply with
  | committed response =>
      intro created
      obtain ⟨row, stored⟩ := kept created
      exact moved response.head row stored
  | resumed | created | stored | truncated | restored | purged | collected => trivial

theorem namespace_wp (run : Database → Except MetadataError (Database × Uuid))
    (moves : ∀ db after id, run db = .ok (after, id) → HistoryStep db after ∧ after = { db with namespaces := after.namespaces })
    (state : ServerState) :
    (transaction fun _ db => run db).Wp (ServerInv env) (serverRely env .free) (serverGuar env .free)
      (Prog.okay fun _ _ => True) state := by
  apply wp_transaction _ _ state fun seen inv => ⟨inv, exclusive_refl seen⟩
  intro seen db id _ inv ran
  obtain ⟨step, same⟩ := moves seen.db db id ran
  have moved : ExclusiveRely seen { seen with db := db } := by
    rw [same]
    exact ⟨rfl, rfl, rfl, rfl, rfl, le_refl _⟩
  exact ⟨⟨exclusive_inv env seen _ moved (history_step_keeps seen.db db step inv.history) inv, moved⟩, fun _ _ _ => trivial⟩

theorem create_namespace_wp (displayName : String) (id : Uuid) (state : ServerState) :
    (Api.createNamespace displayName id).Wp (ServerInv env) (serverRely env .free) (serverGuar env .free)
      (Prog.okay fun _ _ => True) state := by
  apply namespace_wp
  intro db after result run
  refine ⟨create_namespace_step displayName id result db after run, ?_⟩
  simp only [Server.createNamespace, bind_ok] at run
  obtain ⟨_, _, _, _, done⟩ := run
  cases done
  rfl

theorem rename_namespace_wp (namespaceId : Uuid) (displayName : String) (state : ServerState) :
    (Api.renameNamespace namespaceId displayName).Wp (ServerInv env) (serverRely env .free) (serverGuar env .free)
      (Prog.okay fun _ _ => True) state := by
  apply namespace_wp
  intro db after result run
  refine ⟨rename_namespace_step displayName namespaceId result db after run, ?_⟩
  simp only [Server.renameNamespace, bind_ok] at run
  obtain ⟨_, _, _, _, done⟩ := run
  cases done
  rfl

-- A reply other than a commit's promises nothing.
theorem plain_reply {α : Type} (mode : Gate.Mode) (prog : Handler α) (reply : α → Reply)
    (plain : ∀ value state, replyKept (reply value) state) (state : ServerState)
    (holds : prog.Wp (ServerInv env) (serverRely env mode) (serverGuar env mode) (Prog.okay fun _ _ => True) state) :
    (reply <$> prog).Wp (ServerInv env) (serverRely env mode) (serverGuar env mode) (Prog.okay replyKept) state := by
  apply Prog.wp_map
  exact Prog.wp_mono _ _ _ state (fun _ seen _ value _ => plain value seen) holds

theorem request_wp (mode : Gate.Mode) (prog : Handler Reply) (asked : Request env debug mode prog) (state : ServerState) :
    prog.Wp (ServerInv env) (serverRely env mode) (serverGuar env mode) (Prog.okay replyKept) state := by
  cases asked with
  | createNamespace displayName id =>
      exact plain_reply env _ _ Reply.created (fun _ _ => trivial) state (create_namespace_wp env _ _ state)
  | renameNamespace namespaceId displayName =>
      exact plain_reply env _ _ Reply.created (fun _ _ => trivial) state (rename_namespace_wp env _ _ state)
  | putTypedObject key expectedLength stream =>
      exact plain_reply env _ _ Reply.stored (fun _ _ => trivial) state (put_typed_object_wp env _ _ _ state)
  | commitRevisionRootV4 namespaceId payload =>
      apply Prog.wp_map
      exact commit_revision_root_wp env debug namespaceId payload state
  | truncateHistory namespaceId expectedHead expectedEpoch newHead operationId =>
      exact plain_reply env _ _ Reply.truncated (fun _ _ => trivial) state (truncate_wp env _ _ _ _ _ state)
  | restoreHistoryTrash namespaceId operationId expectedHead expectedEpoch =>
      exact plain_reply env _ _ Reply.restored (fun _ _ => trivial) state (restore_wp env _ _ _ _ state)
  | purgeHistoryTrash namespaceId operationIds purgeAll operationId ids =>
      exact plain_reply env _ _ Reply.purged (fun _ _ => trivial) state (purge_history_trash_wp env _ _ _ _ _ state)
  | quarantineServerGc planFingerprint operationId ids =>
      exact plain_reply env _ _ Reply.collected (fun _ _ => trivial) state (quarantine_server_gc_wp env _ _ _ state)

theorem server_rules : Gate.Rules (server env debug) (ServerInv env) (serverRely env) (serverGuar env) replyKept where
  refl := rely_refl env
  trans := rely_trans env
  guarInv _ _ _ _ keeps := keeps.1
  guarRely := guar_rely env
  driftInv a b inv moved := by
    have tick := tick_exclusive a b moved
    obtain ⟨later, _, rfl⟩ := moved
    exact exclusive_inv env a _ tick inv.history inv
  driftRely mode a b moved := exclusive_rely env mode a b (tick_exclusive a b moved)
  keptRely := reply_kept
  requests mode prog asked state _ := request_wp env debug mode prog asked state
  boot state _ := by
    have resumed := Prog.wp_map (fun _ => Reply.resumed) resumePendingGc (fun _ _ => True) state (resume_wp env state)
    exact Prog.wp_mono _ _ _ state (fun _ _ _ => trivial) resumed

theorem server_sound (now : Nanos) (world : Gate.World ServerState HttpError Reply)
    (reached : Gate.Reachable (server env debug) (ServerState.initialized now) world) :
    Gate.Sound (ServerInv env) (serverRely env) (serverGuar env) replyKept world :=
  Gate.reachable_sound (server_rules env debug) _ (initialized_server_inv env now) world reached

-- Whatever moves the state, a file that goes was in no protected graph.
theorem step_no_loss (world after : Gate.World ServerState HttpError Reply) (step : Gate.Step (server env debug) world after)
    (sound : Gate.Sound (ServerInv env) (serverRely env) (serverGuar env) replyKept world) : NoLoss env world.state after.state := by
  rcases Gate.step_moves (server_rules env debug) world after step sound with same | moved | ⟨mode, keeps⟩
  · rw [same]
    exact files_kept_loss env _ _ fun _ _ stored => stored
  · obtain ⟨later, _, same⟩ := moved
    rw [same]
    exact files_kept_loss env _ _ fun _ _ stored => stored
  · cases mode with
    | free =>
        apply files_kept_loss
        intro key bytes stored
        rw [ExclusiveRely.files keeps.2]
        exact stored
    | shared => exact files_kept_loss env _ _ (SharedRely.files keeps.2)
    | exclusive => exact ExclusiveGuar.loss keeps.2

-- The whole graph of a revision can be read, object by object.
def Complete (files : Files) (id : String) : Prop :=
  ∃ root objects, rootObjectsV4 env files id = .ok (root, objects) ∧ ∀ object ∈ objects, Present files object ∧ Valid env files object

theorem complete_of_inv (state : ServerState) (inv : ServerInv env state) (id : String)
    (shielded : isProtected state.db state.clock id = true) : Complete env state.files id := by
  obtain ⟨root, objects, run, _⟩ := inv.intact id shielded
  exact ⟨root, objects, run, root_sound env state.files inv.sizes id root objects run⟩

-- What the world must keep for its active and its restorable revisions.
structure GcSafe (world : Gate.World ServerState HttpError Reply) : Prop where
  complete : ∀ (id : String) (row : RevisionRow), world.state.db.revisions[id]? = some row →
    Shielded world.state.db.trashOperations world.state.clock row → Complete env world.state.files id
  kept : ∀ after, Gate.Step (server env debug) world after → ∀ key, key ∈ world.state.files → key ∉ after.state.files →
    ∀ (id : String) (row : RevisionRow), world.state.db.revisions[id]? = some row →
      Shielded world.state.db.trashOperations world.state.clock row → ∀ root objects,
        rootObjectsV4 env world.state.files id = .ok (root, objects) → key ∉ objects.map StorageObjectRef.key
  restored : ∀ namespaceId operationId expectedHead expectedEpoch db operation,
    Server.restoreHistoryTrash namespaceId operationId expectedHead expectedEpoch world.state.clock world.state.db =
      .ok (db, operation) →
      ∀ (id : String) (row : RevisionRow), world.state.db.revisions[id]? = some row → row.trashOperationId = some operationId →
        (∃ (new : RevisionRow), db.revisions[id]? = some new ∧ new.state = .active) ∧ Complete env world.state.files id

theorem restored_shielded (db after : Database) (inv : HistoryInv db) (namespaceId : Uuid) (head : Option String) (epoch : UInt64)
    (operationId : Uuid) (operation : TrashOperationRow)
    (effect : RestoreEffect db after namespaceId head epoch operationId operation) (now : Nanos)
    (unexpired : now < operation.expiresAt * 1000000) (id : String) (row : RevisionRow) (stored : db.revisions[id]? = some row)
    (tag : row.trashOperationId = some operationId) :
    (∃ (new : RevisionRow), after.revisions[id]? = some new ∧ new.state = .active) ∧ isProtected db now id = true := by
  have lookup := restore_lookup db after namespaceId head epoch operationId operation effect
  constructor
  · exact ⟨_, retag_stored db after (fun _ => reactivate operationId) lookup id row stored, by rw [reactivate, if_pos tag]⟩
  · obtain ⟨found, known, _, fits⟩ := inv.tagged id row stored operationId tag
    rw [effect.stored] at known
    cases known
    rcases fits with ⟨trashed, _⟩ | ⟨_, purged⟩
    · apply (is_protected_iff db now id).mpr
      exact ⟨row, stored, .inr ⟨trashed, operationId, operation, tag, effect.stored, effect.active,
        (millis_lt now operation.expiresAt).mpr unexpired⟩⟩
    · rw [effect.active] at purged
      cases purged

theorem gc_safety (now : Nanos) (world : Gate.World ServerState HttpError Reply)
    (reached : Gate.Reachable (server env debug) (ServerState.initialized now) world) : GcSafe env debug world := by
  have sound := server_sound env debug now world reached
  have guarded : ∀ (id : String) (row : RevisionRow), world.state.db.revisions[id]? = some row →
      Shielded world.state.db.trashOperations world.state.clock row → isProtected world.state.db world.state.clock id = true :=
    fun id row stored shield => (is_protected_iff _ _ _).mpr ⟨row, stored, shield⟩
  refine ⟨fun id row stored shield => ?_, fun after step key stored gone id row known shield root objects run => ?_,
    fun namespaceId operationId expectedHead expectedEpoch db operation run id row stored tag => ?_⟩
  · exact complete_of_inv env world.state sound.holds id (guarded id row stored shield)
  · exact step_no_loss env debug world after step sound key stored gone id root objects (guarded id row known shield) run
  · obtain ⟨_, head, epoch, row_, unexpired, effect⟩ := restore_history_trash_effect _ _ _ _ _ _ db operation run
    obtain ⟨active, shielded⟩ :=
      restored_shielded world.state.db db sound.holds.history _ _ _ _ _ effect _ unexpired id row stored tag
    exact ⟨active, complete_of_inv env world.state sound.holds id shielded⟩

-- Whatever collection is asked for an hour after a first commit.
theorem first_commit_safe : ∃ (response : RevisionCommitResponseV4) (after : ServerState), response.created = true ∧
    ∀ planFingerprint operationId ids, ∃ replies,
    GcSafe (Sample.env false) Sample.debug ⟨((quarantineServerGc (Sample.env false) planFingerprint operationId ids).exec
      { after with clock := after.clock + hour }).2, [], true, replies⟩ := by
  obtain ⟨response, after, created, served⟩ := Sample.served_commit
  refine ⟨response, after, created, fun planFingerprint operationId ids => ⟨[.committed response], ?_⟩⟩
  have later := served.tail (.drift _ _ ⟨after.clock + hour, Int.le_add_of_nonneg_right (by decide), rfl⟩)
  have collected := Gate.request_reachable _ _ .exclusive _ (Request.quarantineServerGc planFingerprint operationId ids) _ _ later
  rw [Prog.exec_map] at collected
  exact gc_safety (Sample.env false) Sample.debug 0 _ collected

end SessionSync.Server
