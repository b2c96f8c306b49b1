import SessionSync.Server.ServeShared
import SessionSync.Lib.Actions

set_option autoImplicit false

namespace SessionSync.Server

open SessionSync.Core Checked Storage

-- What most actions do to the object rows, the queue and the files: a row comes with
-- the time of its transaction, a queued entry only changes its state, no file goes.
structure Mild (state after : ServerState) : Prop where
  clock : after.clock = state.clock
  files : ∀ key, Keeps state.files after.files key
  rows : ∀ (key : ObjectKey) (row : StorageObjectRow), after.db.storageObjects[key]? = some row →
    state.db.storageObjects[key]? = some row ∨ row.createdAt = millis state.clock
  entries : ∀ (id : Uuid) (row : GcQueueRow), state.db.gcQueue[id]? = some row →
    ∃ (later : GcQueueRow), after.db.gcQueue[id]? = some later ∧ later.object = row.object ∧ later.createdAt = row.createdAt ∧
      later.deleteAfterQuarantine = row.deleteAfterQuarantine
  pending : ∀ (id : Uuid) (row : GcQueueRow), after.db.gcQueue[id]? = some row → row.state = .pending →
    state.db.gcQueue[id]? = some row

-- Neither a row nor an entry nor a file changes.
structure Untouched (state after : ServerState) : Prop where
  clock : after.clock = state.clock
  files : after.files = state.files
  rows : after.db.storageObjects = state.db.storageObjects
  queue : after.db.gcQueue = state.db.gcQueue

theorem untouched_refl (state : ServerState) : Untouched state state := ⟨rfl, rfl, rfl, rfl⟩

theorem untouched_trans (one two three : ServerState) (first : Untouched one two) (second : Untouched two three) :
    Untouched one three :=
  ⟨second.clock.trans first.clock, second.files.trans first.files, second.rows.trans first.rows, second.queue.trans first.queue⟩

theorem untouched_mild (state after : ServerState) (moved : Untouched state after) : Mild state after := by
  refine ⟨moved.clock, fun key bytes stored => ?_, fun key row stored => ?_, fun id row stored => ?_, fun id row stored _ => ?_⟩
  · rw [moved.files]
    exact stored
  · rw [moved.rows] at stored
    exact .inl stored
  · exact ⟨row, by rw [moved.queue, stored], rfl, rfl, rfl⟩
  · rw [← moved.queue]
    exact stored

theorem mild_refl (state : ServerState) : Mild state state := untouched_mild state state (untouched_refl state)

theorem acts_transaction {α : Type} {allowed : ServerState → ServerState → Prop}
    (run : Nanos → Database → Except MetadataError (Database × α)) (idle : ∀ state, allowed state state)
    (commits : ∀ (state : ServerState) (db : Database) (value : α), run state.clock state.db = .ok (db, value) →
      allowed state { state with db := db }) : (transaction run).Acts allowed := by
  apply Prog.acts_transact _ idle
  intro state value after ran
  cases outcome : run state.clock state.db with
  | error reason =>
      rw [outcome] at ran
      cases ran
  | ok pair =>
      rw [outcome] at ran
      cases ran
      exact commits state pair.1 pair.2 outcome

theorem untouched_db (state : ServerState) (db : Database) (rows : db.storageObjects = state.db.storageObjects)
    (queue : db.gcQueue = state.db.gcQueue) : Untouched state { state with db := db } := ⟨rfl, rfl, rows, queue⟩

variable (env : ServerEnv) (debug : Option String → String)

section Quiet

variable {allowed : ServerState → ServerState → Prop}
  (quiet : ∀ (state : ServerState) (db : Database), db.storageObjects = state.db.storageObjects → db.gcQueue = state.db.gcQueue →
    allowed state { state with db := db })

include quiet

theorem quiet_idle (state : ServerState) : allowed state state := quiet state state.db rfl rfl

theorem create_namespace_acts (displayName : String) (id : Uuid) : (Api.createNamespace displayName id).Acts allowed := by
  apply acts_transaction _ (quiet_idle quiet)
  intro state db value run
  simp only [Server.createNamespace, bind_ok] at run
  obtain ⟨_, _, _, _, done⟩ := run
  cases done
  exact quiet _ _ rfl rfl

theorem rename_namespace_acts (namespaceId : Uuid) (displayName : String) :
    (Api.renameNamespace namespaceId displayName).Acts allowed := by
  apply acts_transaction _ (quiet_idle quiet)
  intro state db value run
  simp only [Server.renameNamespace, bind_ok] at run
  obtain ⟨_, _, _, _, done⟩ := run
  cases done
  exact quiet _ _ rfl rfl

theorem acts_read {α ε : Type} (look : ServerState → Except ε α) : (Prog.read look).Acts allowed :=
  fun state => ⟨quiet_idle quiet state, Prog.steps_of_except _ _⟩

theorem replace_edges_acts (owner : StorageObjectRef) (targets : List StorageObjectRef) :
    (replaceEdges owner targets).Acts allowed := by
  apply acts_transaction _ (quiet_idle quiet)
  intro state db value run
  simp only [bind_ok, pure_ok, Prod.mk.injEq] at run
  obtain ⟨_, replaced, rfl, _⟩ := run
  obtain ⟨same, _, _⟩ := replace_object_edges_ok owner targets state.db _ replaced
  rw [same]
  exact quiet _ _ rfl rfl

theorem ensure_chunks_acts (chunks : List StorageObjectRef) : (ensureChunks env chunks).Acts allowed := by
  induction chunks with
  | nil => trivial
  | cons chunk rest ih => exact Prog.acts_bind _ _ (acts_read quiet _) fun _ => ih

theorem validate_content_acts (content : ContentRefV4) : (validateContentGraphV4 env content).Acts allowed := by
  unfold validateContentGraphV4
  cases content.storage with
  | whole sha256 => exact Prog.acts_bind _ _ (acts_read quiet _) fun _ => trivial
  | chunked sha256 =>
      apply Prog.acts_bind _ _ (acts_read quiet _)
      intro manifest
      apply Prog.acts_bind _ _ (Prog.steps_of_except _ _)
      intro _
      apply Prog.acts_bind _ _ (ensure_chunks_acts env quiet _)
      intro _
      exact Prog.acts_bind _ _ (replace_edges_acts quiet _ _) fun _ => trivial

theorem validate_contents_acts (contents : List ContentRefV4) : (validateContentsV4 env contents).Acts allowed := by
  induction contents with
  | nil => trivial
  | cons content rest ih =>
      exact Prog.acts_bind _ _ (validate_content_acts env quiet content) fun _ => Prog.acts_bind _ _ ih fun _ => trivial

theorem validate_threads_acts (references : List ThreadRefV4) (graph : Graph) :
    (validateThreadsV4 env references graph).Acts allowed := by
  induction references generalizing graph with
  | nil => trivial
  | cons reference rest ih =>
      apply Prog.acts_bind _ _ (acts_read quiet _)
      intro descriptor
      apply Prog.acts_bind _ _ (Prog.steps_of_except _ _)
      intro _
      apply Prog.acts_bind _ _ (validate_contents_acts env quiet _)
      intro targets
      apply Prog.acts_bind _ _ (replace_edges_acts quiet _ _)
      intro _
      exact Prog.acts_bind _ _ (ih _) fun _ => trivial

theorem validate_graph_acts (revisionId : String) : (validateRevisionGraphV4 env revisionId).Acts allowed := by
  apply Prog.acts_bind _ _ (acts_read quiet _)
  intro root
  apply Prog.acts_bind _ _ (Prog.steps_of_except _ _)
  intro _
  apply Prog.acts_bind _ _ (validate_threads_acts env quiet _ _)
  intro threads
  exact Prog.acts_bind _ _ (replace_edges_acts quiet _ _) fun _ => trivial

theorem commit_acts (namespaceId : Uuid) (payload : RevisionCommitRequestV4) :
    (Server.commitRevisionRootV4 env debug namespaceId payload).Acts allowed := by
  apply Prog.acts_bind _ _ (Prog.steps_of_except _ _)
  intro revisionId
  apply Prog.acts_bind _ _ (Prog.steps_of_except _ _)
  intro _
  apply Prog.acts_bind _ _ (validate_graph_acts env quiet _)
  intro graph
  apply Prog.acts_bind _ _ (Prog.steps_of_except _ _)
  intro _
  apply Prog.acts_bind _ _ (Prog.steps_of_except _ _)
  intro root
  apply Prog.acts_bind _ _ (Prog.steps_of_except _ _)
  intro metadata
  refine Prog.acts_bind _ _ (acts_transaction _ (quiet_idle quiet) fun state db value run => ?_) fun _ => trivial
  obtain ⟨_, _, _, _, _, _, same | created⟩ := commit_revision_root_ok _ _ _ _ _ _ _ _ run
  · rw [same.2.1]
    exact quiet_idle quiet state
  · obtain ⟨_, _, _, _, _, _, _, _, rfl⟩ := created
    exact quiet _ _ rfl rfl

theorem truncate_acts (namespaceId : Uuid) (expectedHead : Option String) (expectedEpoch : UInt64) (newHead : Option String)
    (operationId : Uuid) : (Api.truncateHistory namespaceId expectedHead expectedEpoch newHead operationId).Acts allowed := by
  apply Prog.acts_bind _ _ (Prog.steps_of_except _ _)
  intro _
  apply Prog.acts_bind _ _ (Prog.steps_of_except _ _)
  intro _
  apply acts_transaction _ (quiet_idle quiet)
  intro state db value run
  obtain ⟨_, _, _, _, _, _, _, _, _, _, rfl⟩ := truncate_history_ok _ _ _ _ _ _ _ _ _ run
  exact quiet _ _ rfl rfl

theorem restore_acts (namespaceId operationId : Uuid) (expectedHead : Option String) (expectedEpoch : UInt64) :
    (Api.restoreHistoryTrash namespaceId operationId expectedHead expectedEpoch).Acts allowed := by
  apply Prog.acts_bind _ _ (Prog.steps_of_except _ _)
  intro _
  apply acts_transaction _ (quiet_idle quiet)
  intro state db value run
  obtain ⟨_, _, _, _, _, _, _, _, _, _, _, rfl⟩ := restore_history_trash_ok _ _ _ _ _ _ _ _ run
  exact quiet _ _ rfl rfl

end Quiet

theorem record_ok (object : StorageObjectRef) (now : Nanos) (db after : Database)
    (run : recordStorageObject object now db = .ok after) :
    (db.storageObjects.contains object.key = true ∧ after = db) ∨ ∃ length,
      after = { db with
        storageObjects := db.storageObjects.insert object.key { byteLength := length, createdAt := millis now } } := by
  simp only [recordStorageObject, bind_ok] at run
  obtain ⟨length, _, run⟩ := run
  by_cases known : db.storageObjects.contains object.key = true
  · rw [if_pos known] at run
    cases run
    exact .inl ⟨known, rfl⟩
  · rw [if_neg known] at run
    cases run
    exact .inr ⟨length, rfl⟩

-- The transaction that a PUT ends with, and that acknowledges the object.
def acknowledgePut (key : ObjectKey) (expectedLength : UInt64) (created : Bool) : Handler Bool := do
  transaction fun now db => do
    let db ← recordStorageObject { kind := key.1, sha256 := key.2, byteLength := expectedLength } now db
    return (db, ())
  return created

theorem record_mild (object : StorageObjectRef) (state : ServerState) (db : Database)
    (run : recordStorageObject object state.clock state.db = .ok db) : Mild state { state with db := db } := by
  rcases record_ok object state.clock state.db db run with ⟨_, rfl⟩ | ⟨length, rfl⟩
  · exact mild_refl state
  · refine ⟨rfl, fun _ _ stored => stored, fun key row stored => ?_, fun id row stored => ⟨row, stored, rfl, rfl, rfl⟩,
      fun _ _ stored _ => stored⟩
    rw [Keyed.lookup_insert] at stored
    by_cases same : key = object.key
    · rw [if_pos same] at stored
      cases stored
      exact .inr rfl
    · rw [if_neg same] at stored
      exact .inl stored

theorem rename_mild (key : ObjectKey) (bytes : Bytes) (state : ServerState) : Mild state (renameInto key bytes state).2 := by
  unfold renameInto
  by_cases present : state.files.contains key = true
  · rw [if_pos present]
    exact mild_refl state
  · rw [if_neg present]
    refine ⟨rfl, fun other stored inside => ?_, fun _ _ stored => .inl stored, fun id row stored => ⟨row, stored, rfl, rfl, rfl⟩,
      fun _ _ stored _ => stored⟩
    by_cases same : other = key
    · subst same
      exact absurd (Std.ExtTreeMap.contains_iff_mem.mpr (Std.ExtTreeMap.mem_iff_isSome_getElem?.mpr (inside ▸ rfl))) present
    · rw [Keyed.lookup_insert, if_neg same]
      exact inside

theorem untouched_acts {α : Type} (prog : Handler α) (acts : prog.Acts Untouched) : prog.Acts Mild :=
  Prog.steps_mono _ _ (fun state after _ => untouched_mild state after) prog acts

theorem query_acts {α ε : Type} (look : ServerState → α) : (Prog.query look : Prog ServerState ε α).Acts Mild :=
  Prog.acts_query look mild_refl

section Put

variable {allowed : ServerState → ServerState → Prop} (idle : ∀ state, allowed state state)

include idle

theorem verify_keeps (key : ObjectKey) (expectedLength : UInt64) :
    (do Prog.read fun state : ServerState => verifyFile env key expectedLength state.files; return false).Acts allowed :=
  Prog.acts_bind _ _ (fun state => ⟨idle state, Prog.steps_of_except _ _⟩) fun _ => trivial

theorem put_stream_keeps (key : ObjectKey) (expectedLength : UInt64) (stream : List Bytes)
    (renames : ∀ bytes state, writeVerifiedTemp env (env.limit key.1) expectedLength key.2 stream [] = .ok bytes →
      allowed state (renameInto key bytes state).2) : (putStream env key expectedLength stream).Acts allowed := by
  apply Prog.acts_bind _ _ (Prog.steps_of_except _ _)
  intro _
  apply Prog.acts_bind _ _ (Prog.steps_of_except _ _)
  intro _
  cases received : writeVerifiedTemp env (env.limit key.1) expectedLength key.2 stream [] with
  | error reason => trivial
  | ok bytes =>
      apply Prog.acts_bind _ _ (Prog.acts_query _ idle)
      intro present
      split
      · exact verify_keeps env idle key expectedLength
      · have installs : (Prog.act (ε := ObjectStoreError) (renameInto key bytes) .ret).Acts allowed := fun state =>
          ⟨renames bytes state received, trivial⟩
        apply Prog.acts_bind _ _ installs
        intro installed
        split
        · trivial
        · apply Prog.acts_bind _ _ (Prog.acts_query _ idle)
          intro there
          apply Prog.acts_bind _ _ (Prog.steps_of_except _ _)
          intro _
          exact verify_keeps env idle key expectedLength

theorem acknowledge_keeps (key : ObjectKey) (expectedLength : UInt64) (created : Bool)
    (records : ∀ state db, recordStorageObject ⟨key.1, key.2, expectedLength⟩ state.clock state.db = .ok db →
      allowed state { state with db := db }) :
    (acknowledgePut key expectedLength created).Acts allowed := by
  refine Prog.acts_bind _ _ (acts_transaction _ idle fun state db value run => ?_) fun _ => trivial
  simp only [bind_ok, pure_ok, Prod.mk.injEq] at run
  obtain ⟨_, recorded, rfl, _⟩ := run
  exact records state _ recorded

omit idle in
theorem put_stream_fails (key : ObjectKey) (expectedLength : UInt64) (stream : List Bytes) (reason : ObjectStoreError)
    (received : writeVerifiedTemp env (env.limit key.1) expectedLength key.2 stream [] = .error reason) :
    ∃ error, putStream env key expectedLength stream = .fail error := by
  unfold putStream
  rw [received]
  cases objectPath key.2 with
  | error other => exact ⟨other, rfl⟩
  | ok _ =>
      cases ensure (expectedLength ≤ env.limit key.1) (ObjectStoreError.objectTooLarge (env.limit key.1) expectedLength) with
      | error other => exact ⟨other, rfl⟩
      | ok _ => exact ⟨reason, rfl⟩

theorem put_keeps (key : ObjectKey) (expectedLength : UInt64) (stream : List Bytes)
    (renames : ∀ bytes state, writeVerifiedTemp env (env.limit key.1) expectedLength key.2 stream [] = .ok bytes →
      allowed state (renameInto key bytes state).2)
    (records : ∀ bytes state db, writeVerifiedTemp env (env.limit key.1) expectedLength key.2 stream [] = .ok bytes →
      recordStorageObject ⟨key.1, key.2, expectedLength⟩ state.clock state.db = .ok db → allowed state { state with db := db }) :
    (Server.putTypedObject env key expectedLength stream).Acts allowed := by
  apply Prog.acts_bind _ _ (Prog.steps_of_except _ _)
  intro _
  apply Prog.acts_bind _ _ (Prog.steps_of_except _ _)
  intro _
  cases received : writeVerifiedTemp env (env.limit key.1) expectedLength key.2 stream [] with
  | error reason =>
      obtain ⟨error, failed⟩ := put_stream_fails env key expectedLength stream reason received
      rw [failed]
      trivial
  | ok bytes =>
      apply Prog.acts_bind _ _ (Prog.acts_map_error _ _ (put_stream_keeps env idle key expectedLength stream renames))
      exact fun created => acknowledge_keeps idle key expectedLength created fun state db => records bytes state db received

end Put

theorem put_acts (key : ObjectKey) (expectedLength : UInt64) (stream : List Bytes) :
    (Server.putTypedObject env key expectedLength stream).Acts Mild :=
  put_keeps env mild_refl key expectedLength stream (fun bytes state _ => rename_mild key bytes state) fun _ state db _ run =>
    record_mild _ state db run

-- Whatever may run beside an upload.
theorem beside_acts (mode : Gate.Mode) (prog : Handler Reply) (asked : Request env debug mode prog) (beside : mode ≠ .exclusive) :
    prog.Acts Mild := by
  cases asked with
  | createNamespace displayName id => exact untouched_acts _ (Prog.acts_map _ _ (create_namespace_acts untouched_db displayName id))
  | renameNamespace namespaceId displayName =>
      exact untouched_acts _ (Prog.acts_map _ _ (rename_namespace_acts untouched_db namespaceId displayName))
  | putTypedObject key expectedLength stream => exact Prog.acts_map _ _ (put_acts env key expectedLength stream)
  | commitRevisionRootV4 namespaceId payload =>
      exact untouched_acts _ (Prog.acts_map _ _ (commit_acts env debug untouched_db namespaceId payload))
  | truncateHistory | restoreHistoryTrash | purgeHistoryTrash | quarantineServerGc => exact absurd rfl beside

-- A queued entry that only changes its state, and not to pending.
theorem modified_mild (state : ServerState) (db : Database) (id : Uuid) (change : GcQueueRow → GcQueueRow)
    (rows : ∀ (key : ObjectKey) (row : StorageObjectRow), db.storageObjects[key]? = some row →
      state.db.storageObjects[key]? = some row)
    (queue : db.gcQueue = state.db.gcQueue.modify id change)
    (same : ∀ row, (change row).object = row.object ∧ (change row).createdAt = row.createdAt ∧
      (change row).deleteAfterQuarantine = row.deleteAfterQuarantine)
    (leaves : ∀ row, (change row).state = .pending → change row = row) : Mild state { state with db := db } := by
  refine ⟨rfl, fun _ _ stored => stored, fun key row stored => .inl (rows key row stored), fun other row stored => ?_,
    fun other row stored pending => ?_⟩
  · show ∃ later, db.gcQueue[other]? = some later ∧ _
    rw [queue, Keyed.lookup_modify, stored]
    by_cases own : other = id
    · rw [if_pos own]
      exact ⟨change row, rfl, same row⟩
    · rw [if_neg own]
      exact ⟨row, rfl, rfl, rfl, rfl⟩
  · show state.db.gcQueue[other]? = some row
    replace stored : db.gcQueue[other]? = some row := stored
    rw [queue, Keyed.lookup_modify] at stored
    by_cases own : other = id
    · rw [if_pos own] at stored
      obtain ⟨before, known, rfl⟩ := Option.map_eq_some_iff.mp stored
      rw [known, leaves before pending]
    · rw [if_neg own] at stored
      exact stored

theorem cancel_mild (id : Uuid) (state : ServerState) : Mild state { state with db := Server.cancelGcEntry id state.db } := by
  refine modified_mild state _ id _ (fun _ _ stored => stored) rfl (fun row => ?_) fun row pending => ?_
  · by_cases waits : row.state = .pending
    · rw [if_pos waits]
      exact ⟨rfl, rfl, rfl⟩
    · rw [if_neg waits]
      exact ⟨rfl, rfl, rfl⟩
  · by_cases waits : row.state = .pending
    · rw [if_pos waits] at pending
      cases pending
    · rw [if_neg waits]

theorem complete_mild (entry : GcQueueEntry) (now : Nanos) (state : ServerState) :
    Mild state { state with db := Server.completeGcEntry entry now state.db } := by
  refine modified_mild state _ entry.id _ (fun key row stored => ?_) rfl (fun row => ?_) fun row pending => ?_
  · replace stored : (state.db.storageObjects.erase entry.object.key)[key]? = some row := stored
    rw [Keyed.lookup_erase] at stored
    by_cases own : key = entry.object.key
    · rw [if_pos own] at stored
      cases stored
    · rw [if_neg own] at stored
      exact stored
  · by_cases waits : row.state = .pending
    · rw [if_pos waits]
      exact ⟨rfl, rfl, rfl⟩
    · rw [if_neg waits]
      exact ⟨rfl, rfl, rfl⟩
  · by_cases waits : row.state = .pending
    · rw [if_pos waits] at pending
      cases pending
    · rw [if_neg waits]

theorem mark_mild (id : Uuid) (state : ServerState) : Mild state { state with db := Server.markGcEntryPurged id state.db } := by
  refine modified_mild state _ id _ (fun _ _ stored => stored) rfl (fun row => ?_) fun row pending => ?_
  · by_cases due : (row.state = .quarantined && row.deleteAfterQuarantine) = true
    · rw [if_pos due]
      exact ⟨rfl, rfl, rfl⟩
    · rw [if_neg due]
      exact ⟨rfl, rfl, rfl⟩
  · by_cases due : (row.state = .quarantined && row.deleteAfterQuarantine) = true
    · rw [if_pos due] at pending
      cases pending
    · rw [if_neg due]

theorem purge_quarantined_acts (operationId : Uuid) (key : ObjectKey) (expectedLength : UInt64) :
    (purgeQuarantined operationId key expectedLength).Acts Mild := by
  apply Prog.acts_bind _ _ (query_acts _)
  intro metadata
  cases metadata with
  | none => trivial
  | some bytes =>
      apply Prog.acts_bind _ _ (Prog.steps_of_except _ _)
      intro _
      refine Prog.acts_bind _ _ (Prog.acts_update _ fun state => ?_) fun _ => trivial
      exact ⟨rfl, fun _ _ stored => stored, fun _ _ stored => .inl stored, fun id row stored => ⟨row, stored, rfl, rfl, rfl⟩,
        fun _ _ stored _ => stored⟩

theorem purge_entry_acts (entry : GcQueueEntry) : (purgeGcEntry entry).Acts Mild := by
  apply Prog.acts_bind _ _ (Prog.steps_of_except _ _)
  intro _
  apply Prog.acts_bind _ _ (Prog.acts_map_error _ _ (purge_quarantined_acts _ _ _))
  intro _
  refine acts_transaction _ mild_refl fun state db value run => ?_
  cases run
  exact mark_mild entry.id state

theorem purge_entries_acts (entries : List GcQueueEntry) : (purgeGcEntries entries).Acts Mild := by
  induction entries with
  | nil => trivial
  | cons entry rest ih => exact Prog.acts_bind _ _ (purge_entry_acts entry) fun _ => ih

end SessionSync.Server
