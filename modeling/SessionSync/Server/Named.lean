import SessionSync.Server.UploadGrace

set_option autoImplicit false

namespace SessionSync.Server

open SessionSync.Core Checked Storage

variable (env : ServerEnv) (debug : Option String → String) (accepted : Bytes → Prop)

-- The requests, where an upload that is verified brings one of the accepted bodies.
inductive Sending : Gate.Mode → Handler Reply → Prop where
  | put (key : ObjectKey) (expectedLength : UInt64) (stream : List Bytes)
      (known : ∀ bytes, writeVerifiedTemp env (env.limit key.1) expectedLength key.2 stream [] = .ok bytes → accepted bytes) :
      Sending .shared (Reply.stored <$> putTypedObject env key expectedLength stream)
  | commit (namespaceId : Uuid) (payload : RevisionCommitRequestV4) :
      Sending .shared (Reply.committed <$> Server.commitRevisionRootV4 env debug namespaceId payload)
  | other (mode : Gate.Mode) (prog : Handler Reply) (asked : Request env debug mode prog) (apart : mode ≠ .shared) : Sending mode prog

def sending : Gate.System ServerState HttpError Reply := { server env debug with request := Sending env debug accepted }

-- The length is that of a body with the digest.
def BodyLength (sha256 : String) (byteLength : UInt64) : Prop :=
  ∃ bytes, accepted bytes ∧ digestBytes env.lib bytes = sha256 ∧ fileLength bytes = byteLength

structure Named (state : ServerState) : Prop where
  files : ∀ (key : ObjectKey) (bytes : Bytes), state.files[key]? = some bytes → accepted bytes ∧ digestBytes env.lib bytes = key.2
  gcFiles : ∀ (place : Uuid × ObjectKey) (bytes : Bytes), state.gcFiles[place]? = some bytes →
    accepted bytes ∧ digestBytes env.lib bytes = place.2.2
  rows : ∀ (key : ObjectKey) (row : StorageObjectRow), state.db.storageObjects[key]? = some row →
    BodyLength env accepted key.2 row.byteLength
  queue : ∀ (id : Uuid) (row : GcQueueRow), state.db.gcQueue[id]? = some row →
    BodyLength env accepted row.object.sha256 row.object.byteLength

def NamedKept (state after : ServerState) : Prop := Named env accepted state → Named env accepted after

theorem sql_integer_same (value length : UInt64) (id : String) (run : sqlInteger value id = .ok length) : length = value := by
  unfold sqlInteger at run
  split at run
  · exact (Except.ok.inj run).symm
  · cases run

theorem named_quiet (state : ServerState) (db : Database) (rows : db.storageObjects = state.db.storageObjects)
    (queue : db.gcQueue = state.db.gcQueue) : NamedKept env accepted state { state with db := db } := by
  intro named
  refine ⟨named.files, named.gcFiles, fun key row stored => named.rows key row (rows ▸ stored), fun id row stored => ?_⟩
  exact named.queue id row (queue ▸ stored)

theorem named_idle (state : ServerState) : NamedKept env accepted state state := id

theorem rename_named (key : ObjectKey) (bytes : Bytes) (known : accepted bytes) (named : digestBytes env.lib bytes = key.2)
    (state : ServerState) : NamedKept env accepted state (renameInto key bytes state).2 := by
  intro holds
  unfold renameInto
  split
  · exact holds
  · refine ⟨fun other found stored => ?_, holds.gcFiles, holds.rows, holds.queue⟩
    replace stored := (Keyed.lookup_insert _ _ _ _).symm.trans stored
    by_cases same : other = key
    · rw [if_pos same] at stored
      cases stored
      exact ⟨known, same ▸ named⟩
    · rw [if_neg same] at stored
      exact holds.files other found stored

theorem record_named (object : StorageObjectRef) (sized : BodyLength env accepted object.sha256 object.byteLength)
    (state : ServerState) (db : Database) (run : recordStorageObject object state.clock state.db = .ok db) :
    NamedKept env accepted state { state with db := db } := by
  intro holds
  simp only [recordStorageObject, bind_ok] at run
  obtain ⟨length, fits, run⟩ := run
  cases sql_integer_same _ _ _ fits
  by_cases known : state.db.storageObjects.contains object.key = true
  · rw [if_pos known] at run
    cases run
    exact holds
  · rw [if_neg known] at run
    cases run
    refine ⟨holds.files, holds.gcFiles, fun key row stored => ?_, holds.queue⟩
    replace stored := (Keyed.lookup_insert _ _ _ _).symm.trans stored
    by_cases same : key = object.key
    · rw [if_pos same] at stored
      cases stored
      exact same ▸ sized
    · rw [if_neg same] at stored
      exact holds.rows key row stored

theorem write_verified_server (limit expectedLength : UInt64) (digest : String) (stream : List Bytes) (received bytes : Bytes)
    (run : writeVerifiedTemp env limit expectedLength digest stream received = .ok bytes) :
    digestBytes env.lib bytes = digest ∧ fileLength bytes = expectedLength := by
  induction stream generalizing received with
  | nil =>
      simp only [writeVerifiedTemp, bind_ok, ensure_ok, pure_ok] at run
      obtain ⟨_, length, _, named, rfl⟩ := run
      exact ⟨named, length⟩
  | cons chunk rest ih =>
      simp only [writeVerifiedTemp, bind_ok, ensure_ok] at run
      obtain ⟨_, _, _, _, _, _, run⟩ := run
      exact ih _ run

theorem put_named (key : ObjectKey) (expectedLength : UInt64) (stream : List Bytes)
    (known : ∀ bytes, writeVerifiedTemp env (env.limit key.1) expectedLength key.2 stream [] = .ok bytes → accepted bytes) :
    (Server.putTypedObject env key expectedLength stream).Acts (NamedKept env accepted) := by
  refine put_keeps env (named_idle env accepted) key expectedLength stream
    (fun bytes state received => ?_) fun bytes state db received run => ?_
  · exact rename_named env accepted key bytes (known bytes received)
      (write_verified_server env _ _ _ _ _ bytes received).1 state
  · obtain ⟨named, length⟩ := write_verified_server env _ _ _ _ _ bytes received
    exact record_named env accepted ⟨key.1, key.2, expectedLength⟩
      ⟨bytes, known bytes received, named, length⟩ state db run

theorem acts_named {α ε : Type} (look : ServerState → α) : (Prog.query look : Prog ServerState ε α).Acts (NamedKept env accepted) :=
  Prog.acts_query look (named_idle env accepted)

theorem asks_named {α : Type} (look : Nanos → Database → α) :
    (transaction fun now db => .ok (db, look now db)).Acts (NamedKept env accepted) :=
  acts_transaction _ (named_idle env accepted) fun state db value run => by
    cases run
    exact named_idle env accepted state

theorem queue_change_named (state : ServerState) (db : Database) (id : Uuid) (change : GcQueueRow → GcQueueRow)
    (rows : ∀ (key : ObjectKey) (row : StorageObjectRow), db.storageObjects[key]? = some row →
      state.db.storageObjects[key]? = some row)
    (queue : db.gcQueue = state.db.gcQueue.modify id change) (same : ∀ row, (change row).object = row.object) :
    NamedKept env accepted state { state with db := db } := by
  intro named
  refine ⟨named.files, named.gcFiles, fun key row stored => named.rows key row (rows key row stored), fun other row stored => ?_⟩
  replace stored : db.gcQueue[other]? = some row := stored
  rw [queue, Keyed.lookup_modify] at stored
  by_cases own : other = id
  · rw [if_pos own] at stored
    obtain ⟨before, known, rfl⟩ := Option.map_eq_some_iff.mp stored
    rw [same before]
    exact named.queue other before known
  · rw [if_neg own] at stored
    exact named.queue other row stored

theorem cancel_named (id : Uuid) : (transaction fun _ db => .ok (Server.cancelGcEntry id db, ())).Acts (NamedKept env accepted) := by
  refine acts_transaction _ (named_idle env accepted) fun state db value run => ?_
  cases run
  refine queue_change_named env accepted state _ id _ (fun _ _ stored => stored) rfl fun row => ?_
  by_cases waits : row.state = .pending
  · rw [if_pos waits]
  · rw [if_neg waits]

theorem complete_named (entry : GcQueueEntry) :
    (transaction fun now db => .ok (Server.completeGcEntry entry now db, ())).Acts (NamedKept env accepted) := by
  refine acts_transaction _ (named_idle env accepted) fun state db value run => ?_
  cases run
  refine queue_change_named env accepted state _ entry.id _ (fun key row stored => ?_) rfl fun row => ?_
  · replace stored := (Keyed.lookup_erase _ _ _).symm.trans stored
    by_cases own : key = entry.object.key
    · rw [if_pos own] at stored
      cases stored
    · rw [if_neg own] at stored
      exact stored
  · by_cases waits : row.state = .pending
    · rw [if_pos waits]
    · rw [if_neg waits]

theorem mark_named (id : Uuid) :
    (transaction fun _ db => .ok (Server.markGcEntryPurged id db, ())).Acts (NamedKept env accepted) := by
  refine acts_transaction _ (named_idle env accepted) fun state db value run => ?_
  cases run
  refine queue_change_named env accepted state _ id _ (fun _ _ stored => stored) rfl fun row => ?_
  by_cases due : (row.state = .quarantined && row.deleteAfterQuarantine) = true
  · rw [if_pos due]
  · rw [if_neg due]

theorem take_named (operationId : Uuid) (key : ObjectKey) (state : ServerState) :
    NamedKept env accepted state (quarantineFile operationId key state).2 := by
  intro named
  unfold quarantineFile
  cases stored : state.files[key]? with
  | none => exact named
  | some bytes =>
      refine ⟨fun other found inside => ?_, fun place found inside => ?_, named.rows, named.queue⟩
      · replace inside := (Keyed.lookup_erase _ _ _).symm.trans inside
        by_cases own : other = key
        · rw [if_pos own] at inside
          cases inside
        · rw [if_neg own] at inside
          exact named.files other found inside
      · replace inside := (Keyed.lookup_insert _ _ _ _).symm.trans inside
        by_cases own : place = (operationId, key)
        · rw [if_pos own] at inside
          cases inside
          rw [own]
          exact named.files key _ stored
        · rw [if_neg own] at inside
          exact named.gcFiles place found inside

theorem quarantine_named (operationId : Uuid) (key : ObjectKey) : (quarantine operationId key).Acts (NamedKept env accepted) := by
  apply Prog.acts_bind _ _ (Prog.steps_of_except _ _)
  intro _
  apply Prog.acts_bind _ _ (acts_named env accepted _)
  intro present
  by_cases there : present = true
  · rw [if_pos there]
    exact fun state => ⟨take_named env accepted operationId key state, trivial⟩
  · rw [if_neg there]
    exact acts_named env accepted _

theorem purge_quarantined_named (operationId : Uuid) (key : ObjectKey) (expectedLength : UInt64) :
    (purgeQuarantined operationId key expectedLength).Acts (NamedKept env accepted) := by
  apply Prog.acts_bind _ _ (acts_named env accepted _)
  intro metadata
  cases metadata with
  | none => trivial
  | some bytes =>
      apply Prog.acts_bind _ _ (Prog.steps_of_except _ _)
      intro _
      refine Prog.acts_bind _ _ (Prog.acts_update _ fun state named => ?_) fun _ => trivial
      refine ⟨named.files, fun place found inside => ?_, named.rows, named.queue⟩
      replace inside := (Keyed.lookup_erase _ _ _).symm.trans inside
      by_cases own : place = (operationId, key)
      · rw [if_pos own] at inside
        cases inside
      · rw [if_neg own] at inside
        exact named.gcFiles place found inside

theorem purge_entry_named (entry : GcQueueEntry) : (purgeGcEntry entry).Acts (NamedKept env accepted) := by
  apply Prog.acts_bind _ _ (Prog.steps_of_except _ _)
  intro _
  apply Prog.acts_bind _ _ (Prog.acts_map_error _ _ (purge_quarantined_named env accepted _ _ _))
  exact fun _ => mark_named env accepted entry.id

theorem process_named (entries : List GcQueueEntry) (count : Nat) (bytes : UInt64) :
    (processGcEntries entries count bytes).Acts (NamedKept env accepted) := by
  induction entries generalizing count bytes with
  | nil => trivial
  | cons entry rest ih =>
      apply Prog.acts_bind _ _ (asks_named env accepted _)
      intro reachable
      by_cases reached : reachable = true
      · rw [if_pos reached]
        exact Prog.acts_bind _ _ (cancel_named env accepted entry.id) fun _ => ih _ _
      · rw [if_neg reached]
        apply Prog.acts_bind _ _ (Prog.steps_of_except _ _)
        intro _
        apply Prog.acts_bind _ _ (Prog.acts_map_error _ _ (quarantine_named env accepted _ _))
        intro _
        apply Prog.acts_bind _ _ (complete_named env accepted entry)
        intro _
        by_cases deletes : entry.deleteAfterQuarantine = true
        · rw [if_pos deletes]
          exact Prog.acts_bind _ _ (purge_entry_named env accepted entry) fun _ => ih _ _
        · rw [if_neg deletes]
          exact ih _ _

theorem purges_named (entries : List GcQueueEntry) : (purgeGcEntries entries).Acts (NamedKept env accepted) := by
  induction entries with
  | nil => trivial
  | cons entry rest ih => exact Prog.acts_bind _ _ (purge_entry_named env accepted entry) fun _ => ih

theorem resume_named : resumePendingGc.Acts (NamedKept env accepted) := by
  apply Prog.acts_bind _ _ (asks_named env accepted fun _ db => pendingGcEntries db)
  intro pending
  apply Prog.acts_bind _ _ (process_named env accepted pending 0 0)
  intro _
  apply Prog.acts_bind _ _ (asks_named env accepted fun _ db => quarantinedGcEntriesForPurge db)
  exact fun quarantined => purges_named env accepted quarantined

-- What is queued has the length it is queued with.
theorem enqueue_named (operationId : Uuid) (purge : Bool) (createdAt : Millis) (objects : List (Uuid × StorageObjectRef))
    (sized : ∀ object ∈ objects, BodyLength env accepted object.2.sha256 object.2.byteLength) (db after : Database)
    (entries : List GcQueueEntry) (run : enqueueObjects operationId purge createdAt objects db = .ok (after, entries)) :
    after.storageObjects = db.storageObjects ∧ ∀ (id : Uuid) (row : GcQueueRow), after.gcQueue[id]? = some row →
      db.gcQueue[id]? = some row ∨ BodyLength env accepted row.object.sha256 row.object.byteLength := by
  induction objects generalizing db entries with
  | nil =>
      cases run
      exact ⟨rfl, fun _ _ => .inl⟩
  | cons object rest ih =>
      simp only [enqueueObjects, bind_ok, insert_new_ok] at run
      obtain ⟨length, fits, _, ⟨_, rfl⟩, ⟨next, later⟩, tail, done⟩ := run
      cases done
      cases sql_integer_same _ _ _ fits
      obtain ⟨rows, queue⟩ := ih (fun other member => sized other (List.mem_cons_of_mem _ member)) _ _ tail
      refine ⟨rows, fun id row stored => ?_⟩
      rcases queue id row stored with before | new
      · replace before := (Keyed.lookup_insert _ _ _ _).symm.trans before
        by_cases same : id = object.1
        · rw [if_pos same] at before
          cases before
          exact .inr (sized object List.mem_cons_self)
        · rw [if_neg same] at before
          exact .inl before
      · exact .inr new

theorem enqueued_named (state : ServerState) (db : Database) (rows : db.storageObjects = state.db.storageObjects)
    (queue : ∀ (id : Uuid) (row : GcQueueRow), db.gcQueue[id]? = some row →
      state.db.gcQueue[id]? = some row ∨ BodyLength env accepted row.object.sha256 row.object.byteLength)
    (named : Named env accepted state) : Named env accepted { state with db := db } := by
  refine ⟨named.files, named.gcFiles, fun key row stored => named.rows key row (rows ▸ stored), fun id row stored => ?_⟩
  rcases queue id row stored with before | sized
  · exact named.queue id row before
  · exact sized

theorem placed_sized (ids : Nat → Uuid) (objects : List StorageObjectRef)
    (sized : ∀ object ∈ objects, BodyLength env accepted object.sha256 object.byteLength) :
    ∀ object ∈ objects.mapIdx fun place object => (ids place, object),
      BodyLength env accepted object.2.sha256 object.2.byteLength := by
  intro object member
  obtain ⟨place, bound, rfl⟩ := List.mem_mapIdx.mp member
  exact sized _ (List.getElem_mem bound)

theorem plan_named (state : ServerState) (plan : ServerGcPlan) (built : buildGcPlan env.lib state.clock state.db = .ok plan)
    (named : Named env accepted state) : ∀ object ∈ plan.candidates, BodyLength env accepted object.sha256 object.byteLength := by
  simp only [buildGcPlan, bind_ok, pure_ok] at built
  obtain ⟨total, _, rfl⟩ := built
  intro object member
  obtain ⟨entry, eligible, rfl⟩ := List.mem_map.mp member
  exact named.rows entry.1 entry.2 (Std.ExtTreeMap.mem_toList_iff_getElem?_eq_some.mp (List.mem_filter.mp eligible).1)

theorem collect_named (planFingerprint : String) (operationId : Uuid) (ids : Nat → Uuid) :
    (Server.quarantineServerGc env planFingerprint operationId ids).Acts (NamedKept env accepted) := by
  apply Prog.acts_bind _ _ (Prog.steps_of_except _ _)
  intro _
  refine Prog.acts_bind _ _ (acts_transaction _ (named_idle env accepted) fun state db value run named => ?_) fun queued =>
    Prog.acts_bind _ _ (process_named env accepted queued.2 0 0) fun _ => trivial
  simp only [Server.enqueueGc, bind_ok] at run
  obtain ⟨plan, built, _, _, ⟨next, later⟩, enqueued, done⟩ := run
  cases done
  obtain ⟨rows, queue⟩ := enqueue_named env accepted operationId false _ _
    (placed_sized env accepted ids _ (plan_named env accepted state plan built named)) state.db _ _ enqueued
  exact enqueued_named env accepted state _ rows queue named

-- A purge queues objects with the lengths of their rows.
theorem purge_queue_sized (db : Database) (now : Nanos) (objects queued : List StorageObjectRef)
    (rows : ∀ (key : ObjectKey) (row : StorageObjectRow), db.storageObjects[key]? = some row →
      BodyLength env accepted key.2 row.byteLength)
    (run : purgeQueue db now objects = .ok queued) : ∀ object ∈ queued, BodyLength env accepted object.sha256 object.byteLength := by
  induction objects generalizing queued with
  | nil =>
      cases run
      exact List.forall_mem_nil _
  | cons object rest ih =>
      unfold purgeQueue at run
      split at run
      · exact ih queued run
      · split at run
        · exact ih queued run
        · next row stored =>
            simp only [bind_ok, ensure_ok, pure_ok] at run
            obtain ⟨_, length, later, tail, rfl⟩ := run
            refine List.forall_mem_cons.mpr ⟨?_, ih later tail⟩
            rw [← length]
            exact rows object.key row stored

theorem purge_history_named (namespaceId : Uuid) (operationIds : List Uuid) (purgeAll : Bool) (operationId : Uuid)
    (ids : Nat → Uuid) :
    (Server.purgeHistoryTrash namespaceId operationIds purgeAll operationId ids).Acts (NamedKept env accepted) := by
  apply Prog.acts_bind _ _ (Prog.steps_of_except _ _)
  intro _
  refine Prog.acts_bind _ _ (acts_transaction _ (named_idle env accepted) fun state db value run => ?_) fun plan => ?_
  · simp only [bind_ok, pure_ok, Prod.mk.injEq] at run
    obtain ⟨_, _, rfl, _⟩ := run
    exact named_idle env accepted state
  · refine Prog.acts_bind _ _ (acts_transaction _ (named_idle env accepted) fun state db value run named => ?_) fun committed =>
      Prog.acts_bind _ _ (process_named env accepted committed.2 0 0) fun _ => trivial
    obtain ⟨_, _, queues⟩ := commit_purge_ok namespaceId plan value.1 operationId ids state.clock state.db db value.2 run
    simp only [enqueueGcObjectsForPurge, bind_ok] at queues
    obtain ⟨queued, listed, queues⟩ := queues
    obtain ⟨rows, queue⟩ := purge_operations_rows namespaceId value.1.operationIds state.db
    have sized :=
      purge_queue_sized env accepted _ state.clock _ queued (fun key row stored => named.rows key row (rows ▸ stored)) listed
    obtain ⟨sameRows, fresh⟩ :=
      enqueue_named env accepted operationId true _ _ (placed_sized env accepted ids queued sized) _ db _ queues
    refine enqueued_named env accepted state db (sameRows.trans rows) (fun id row stored => ?_) named
    rw [← queue]
    exact fresh id row stored

theorem request_named (mode : Gate.Mode) (prog : Handler Reply) (asked : Sending env debug accepted mode prog) :
    prog.Acts (NamedKept env accepted) := by
  have quiet := named_quiet env accepted
  cases asked with
  | put key expectedLength stream known => exact Prog.acts_map _ _ (put_named env accepted key expectedLength stream known)
  | commit namespaceId payload => exact Prog.acts_map _ _ (commit_acts env debug quiet namespaceId payload)
  | other mode prog asked apart =>
      cases asked with
      | createNamespace displayName id => exact Prog.acts_map _ _ (create_namespace_acts quiet displayName id)
      | renameNamespace namespaceId displayName => exact Prog.acts_map _ _ (rename_namespace_acts quiet namespaceId displayName)
      | truncateHistory => exact Prog.acts_map _ _ (truncate_acts quiet _ _ _ _ _)
      | restoreHistoryTrash => exact Prog.acts_map _ _ (restore_acts quiet _ _ _ _)
      | purgeHistoryTrash => exact Prog.acts_map _ _ (purge_history_named env accepted _ _ _ _ _)
      | quarantineServerGc => exact Prog.acts_map _ _ (collect_named env accepted _ _ _)
      | putTypedObject | commitRevisionRootV4 => exact absurd rfl apart

theorem reachable_named (now : Nanos) (world : Gate.World ServerState HttpError Reply)
    (reached : Gate.Reachable (sending env debug accepted) (ServerState.initialized now) world) : Named env accepted world.state := by
  apply Gate.reachable_keeps _ _ (Named env accepted) _ _ _ _ world reached
  · refine ⟨fun key bytes stored => ?_, fun place bytes stored => ?_, fun key row stored => ?_, fun id row stored => ?_⟩
    · exact absurd ((Std.ExtTreeMap.getElem?_empty).symm.trans stored) nofun
    · exact absurd ((Std.ExtTreeMap.getElem?_empty).symm.trans stored) nofun
    · exact absurd ((Std.ExtTreeMap.getElem?_empty).symm.trans stored) nofun
    · exact absurd ((Std.ExtTreeMap.getElem?_empty).symm.trans stored) nofun
  · exact fun mode prog asked => request_named env debug accepted mode prog asked
  · exact Prog.acts_map _ _ (resume_named env accepted)
  · intro state after moved named
    obtain ⟨later, _, rfl⟩ := moved
    exact ⟨named.files, named.gcFiles, named.rows, named.queue⟩

end SessionSync.Server
