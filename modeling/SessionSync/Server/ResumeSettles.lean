import SessionSync.Server.Resume
import SessionSync.Server.Leaks

set_option autoImplicit false

namespace SessionSync.Server

open SessionSync.Core Checked Storage

section Outcome

variable {env : ServerEnv} {accepted : Bytes → Prop} {start seen : ServerState} {cleared : List GcQueueEntry}
  (listed : ∀ entry, entry ∈ cleared ↔ entry ∈ quarantinedGcEntriesForPurge start.db)
  (progress : Progress env accepted start (pendingGcEntries start.db) cleared seen)

include progress

theorem pending_finished (id : Uuid) (row : GcQueueRow) (stored : start.db.gcQueue[id]? = some row) (pending : row.state = .pending) :
    ∃ state at_, seen.db.gcQueue[id]? = some { row with state := state, quarantinedAt := at_ } ∧
      Finished start seen (gcEntry id row) state := by
  have now := progress.rows id row stored
  exact now.1 ((mem_pending start.db _).mpr ⟨id, row, stored, pending, rfl⟩)

omit progress in
theorem waiting_unlisted (id : Uuid) (row : GcQueueRow) (done : row.state ≠ .pending) :
    gcEntry id row ∉ pendingGcEntries start.db := by
  intro inside
  obtain ⟨other, next, _, pending, same⟩ := (mem_pending start.db _).mp inside
  exact done ((congrArg GcQueueEntry.state same).symm.trans pending)

include listed

theorem cleared_row (id : Uuid) (row : GcQueueRow) (stored : start.db.gcQueue[id]? = some row) (waits : row.state = .quarantined)
    (deletes : row.deleteAfterQuarantine = true) :
    seen.db.gcQueue[id]? = some { row with state := .purged } ∧ (gcEntry id row).place ∉ seen.gcFiles := by
  have now := progress.rows id row stored
  have done : row.state ≠ .pending := fun pending => by
    rw [pending] at waits
    cases waits
  exact now.2.1 (waiting_unlisted id row done)
    ((listed _).mpr ((mem_quarantined start.db _).mpr ⟨id, row, stored, waits, deletes, rfl⟩))

theorem resting_row (id : Uuid) (row : GcQueueRow) (stored : start.db.gcQueue[id]? = some row) (done : row.state ≠ .pending)
    (rests : ¬ (row.state = .quarantined ∧ row.deleteAfterQuarantine = true)) :
    seen.db.gcQueue[id]? = some row ∧ seen.gcFiles[(gcEntry id row).place]? = start.gcFiles[(gcEntry id row).place]? := by
  refine fresh_row seen progress id row stored (waiting_unlisted id row done) fun inside => ?_
  obtain ⟨other, next, _, waits, deletes, same⟩ := (mem_quarantined start.db _).mp ((listed _).mp inside)
  exact rests ⟨(congrArg GcQueueEntry.state same).symm.trans waits,
    (congrArg GcQueueEntry.deleteAfterQuarantine same).symm.trans deletes⟩

omit listed progress in
theorem same_place (place : Uuid × ObjectKey) (same : seen.gcFiles[place]? = start.gcFiles[place]?) :
    place ∈ seen.gcFiles ↔ place ∈ start.gcFiles := by
  rw [Std.ExtTreeMap.mem_iff_isSome_getElem?, Std.ExtTreeMap.mem_iff_isSome_getElem?, same]

omit listed progress in
theorem untaken_mem (key : ObjectKey) (kept : Untaken start seen key) :
    (key ∈ seen.db.storageObjects ↔ key ∈ start.db.storageObjects) ∧ (key ∈ seen.files ↔ key ∈ start.files) := by
  simp only [Std.ExtTreeMap.mem_iff_isSome_getElem?, kept.1, kept.2, and_self]

theorem settled_of_resumable (resumable : Resumable start) : Settled start seen := by
  refine ⟨fun id row stored pending => ?_, fun id row stored deletes => ?_, fun key reached => ?_, fun owner target reached => ?_,
    fun key queued => ?_⟩
  · obtain ⟨before, known⟩ := progress.known id row stored
    by_cases waiting : before.state = .pending
    · obtain ⟨state, at_, found, finished⟩ := pending_finished progress id before known waiting
      rw [stored] at found
      cases found
      cases pending
      cases finished
    · by_cases due : before.state = .quarantined ∧ before.deleteAfterQuarantine = true
      · rw [(cleared_row listed progress id before known due.1 due.2).1] at stored
        cases stored
        cases pending
      · rw [(resting_row listed progress id before known waiting due).1] at stored
        cases stored
        exact waiting pending
  · obtain ⟨before, known⟩ := progress.known id row stored
    by_cases waiting : before.state = .pending
    · obtain ⟨state, at_, found, finished⟩ := pending_finished progress id before known waiting
      rw [stored] at found
      cases found
      cases finished with
      | cancelled reached left =>
          exact ⟨.inr rfl, fun present => resumable.removed id before known deletes (.inr (.inr ⟨waiting, reached⟩))
            ((same_place _ left).mp present)⟩
      | quarantined plain _ _ =>
          rw [show (gcEntry id before).deleteAfterQuarantine = true from deletes] at plain
          cases plain
      | purged _ _ _ gone => exact ⟨.inl rfl, gone⟩
    · by_cases due : before.state = .quarantined ∧ before.deleteAfterQuarantine = true
      · obtain ⟨found, gone⟩ := cleared_row listed progress id before known due.1 due.2
        rw [found] at stored
        cases stored
        exact ⟨.inl rfl, gone⟩
      · obtain ⟨found, left⟩ := resting_row listed progress id before known waiting due
        rw [found] at stored
        cases stored
        have ended : row.state = .cancelled ∨ row.state = .purged := by
          cases ends : row.state with
          | pending => exact absurd ends waiting
          | cancelled => exact .inl rfl
          | quarantined => exact absurd ⟨ends, deletes⟩ due
          | purged => exact .inr rfl
        refine ⟨ended.symm, fun present => ?_⟩
        exact resumable.removed id row known deletes (ended.imp_right .inl) ((same_place _ left).mp present)
  · rcases progress.objects key with kept | ⟨_, unreached, queued⟩
    · exact kept
    · exact (reached.elim unreached fun plain => plain queued).elim
  · exact ⟨progress.fewer owner target, fun edge => progress.edges owner target edge reached⟩
  · obtain ⟨id, row, stored, pending, own⟩ := queued
    obtain ⟨state, at_, found, finished⟩ := pending_finished progress id row stored pending
    have lost : ∀ lost : Lost row.object.key seen, key ∈ seen.db.storageObjects ↔ key ∈ seen.files := fun lost =>
      own ▸ iff_of_false lost.2 lost.1
    cases finished with
    | cancelled reached left =>
        rcases progress.objects key with kept | ⟨gone, _, _⟩
        · obtain ⟨rows, files⟩ := untaken_mem key kept
          rw [rows, files]
          exact resumable.recorded key ⟨id, row, stored, pending, own⟩ (own ▸ reached)
        · exact iff_of_false gone.2 gone.1
    | quarantined _ _ gone => exact lost gone
    | purged _ _ gone _ => exact lost gone

-- While the clock stands still what is reached at the start is reached at the end.
theorem resumable_of_settled (still : seen.clock = start.clock) (settled : Settled start seen) : Resumable start := by
  constructor
  · intro id row stored deletes ended present
    by_cases pending : row.state = .pending
    · have reached : row.object.key ∈ reachableObjects start.db start.clock := by
        rcases ended with cancelled | purged | waiting
        · rw [pending] at cancelled
          cases cancelled
        · rw [pending] at purged
          cases purged
        · exact waiting.2
      obtain ⟨state, at_, found, finished⟩ := pending_finished progress id row stored pending
      cases finished with
      | cancelled _ left => exact (settled.deleted id _ found deletes).2 ((same_place _ left).mpr present)
      | quarantined _ unreached _ => exact unreached (still ▸ reached)
      | purged _ unreached _ _ => exact unreached (still ▸ reached)
    · have rests : ¬ (row.state = .quarantined ∧ row.deleteAfterQuarantine = true) := by
        intro due
        rcases ended with cancelled | purged | waiting
        · rw [due.1] at cancelled
          cases cancelled
        · rw [due.1] at purged
          cases purged
        · exact pending waiting.1
      obtain ⟨found, left⟩ := resting_row listed progress id row stored pending rests
      exact (settled.deleted id row found deletes).2 ((same_place _ left).mpr present)
  · intro key queued reached
    have kept := settled.untouched key (.inl (still ▸ reached))
    obtain ⟨rows, files⟩ := untaken_mem key kept
    rw [← rows, ← files]
    exact settled.recorded key queued

end Outcome

theorem resumes_iff {env : ServerEnv} {accepted : Bytes → Prop} (clear : ClashFree env accepted) (start : ServerState)
    (distinct : DistinctPlaces start.db) (named : Named env accepted start) : Resumes start ↔ Resumable start := by
  have runs := resume_progress clear start distinct named
  constructor
  · intro resumes
    have clock := tick_clock resumePendingGc _ start resumes
    obtain ⟨_, _, settled⟩ := Prog.wp_exec tick_refl (fun _ => trivial) _ _ _ resumes
    obtain ⟨_, _, cleared, listed, progress⟩ := Prog.wp_exec tick_refl (fun _ => trivial) _ _ _ runs
    exact resumable_of_settled listed progress clock settled
  · intro resumable
    refine Prog.sure_mono _ _ _ _ (fun _ seen finished => ?_) runs
    obtain ⟨cleared, listed, progress⟩ := finished
    exact settled_of_resumable listed progress resumable

-- A start resumes the queue to its end just when nothing is left of an entry that will
-- not be purged any more and every waiting object that is reached again has its row.
theorem resumption_settles (env : ServerEnv) (debug : Option String → String) (accepted : Bytes → Prop)
    (clear : ClashFree env accepted) (now : Nanos) (world : ServerWorld)
    (reached : Gate.Reachable (sending env debug accepted) (ServerState.initialized now) world)
    (distinct : DistinctPlaces world.state.db) : Resumes world.state ↔ Resumable world.state :=
  resumes_iff clear world.state distinct (reachable_named env debug accepted now world reached)

-- A commit that was made protects its root.
theorem created_reached (env : ServerEnv) (debug : Option String → String) (root : RevisionRootV4) (valid : root.validate = .ok ())
    (epoch : UInt64) (state after : ServerState) (response : RevisionCommitResponseV4)
    (run : (commitRevisionRootV4 env debug root.namespaceId ⟨root.parentRevision, epoch, root⟩).exec state = (.ok response, after))
    (created : response.created = true) : (.revisionRoot, rootId env root) ∈ reachableObjects after.db after.clock := by
  simp only [commitRevisionRootV4, Prog.exec_bind_ok, Prog.exec_of_except, Prod.mk.injEq, invalidRequest, map_error_ok, found_ok,
    ensure_ok, exec_transaction_ok] at run
  obtain ⟨_, _, _, _, _, _, ⟨seen, graph⟩, _, _, _, _, ⟨same, rfl⟩, object, _, _, metadata, _, ⟨made, rfl⟩, ⟨outcome, later⟩, _,
    ⟨db, committed, rfl⟩, done⟩ := run
  cases done
  rw [same] at made
  obtain ⟨total, _, rfl⟩ := (root_metadata_ok env root valid _ _ _).mp made
  rw [show outcome = .created from of_decide_eq_true created] at committed
  obtain ⟨normal, _, _, _, _, _, ⟨impossible, _⟩ | ⟨_, _, _, _, _, row, written, _, rfl⟩⟩ :=
    commit_revision_root_ok _ _ _ _ _ _ _ _ committed
  · cases impossible
  · rw [mem_reachable]
    refine ⟨_, List.mem_map.mpr ⟨(rootId env root, ⟨rootId env root, normal.rootSchemaVersion⟩), List.mem_filter.mpr ⟨?_, ?_⟩, rfl⟩,
      .refl⟩
    · exact Std.ExtTreeMap.mem_toList_iff_getElem?_eq_some.mpr ((Keyed.lookup_insert _ _ _ _).trans (if_pos rfl))
    · exact (is_protected_iff _ _ _).mpr ⟨row, (Keyed.lookup_insert _ _ _ _).trans (if_pos rfl),
        .inl (revision_row_ok _ _ written).2.2.1⟩

theorem enqueue_single (lib : Primitives) (operationId : Uuid) (ids : Nat → Uuid) (now : Nanos) (db : Database) (plan : ServerGcPlan)
    (object : StorageObjectRef) (built : buildGcPlan lib now db = .ok plan) (single : plan.candidates = [object])
    (small : object.byteLength.toNat < 2 ^ 63) (fresh : db.gcQueue[ids 0]? = none) :
    enqueueGc lib plan.planFingerprint operationId ids now db =
      .ok ({ db with gcQueue := db.gcQueue.insert (ids 0) ⟨operationId, object, .pending, millis now, none, false⟩ }, operationId,
        [gcEntry (ids 0) ⟨operationId, object, .pending, millis now, none, false⟩]) := by
  have fits : sqlInteger object.byteLength object.sha256 = .ok object.byteLength := (sql_integer_ok _ _ _).mpr ⟨small, rfl⟩
  have inserted : ∀ row, insertNew db.gcQueue (ids 0) row = .ok (db.gcQueue.insert (ids 0) row) := fun row =>
    (insert_new_ok _ _ _ _).mpr ⟨fresh, rfl⟩
  simp only [enqueueGc, built, bind_ok, ensure_ok, Except.ok.injEq, exists_eq_left', single, List.mapIdx_cons, List.mapIdx_nil,
    enqueueObjects, fits, inserted]
  exact ⟨(), trivial, _, rfl, rfl⟩

-- An entry that nothing reaches, with its file in place.
theorem process_single (entry : GcQueueEntry) (state : ServerState) (bytes : Bytes) (valid : validSha256 entry.object.sha256 = true)
    (unreached : gcObjectIsReachable state.db state.clock entry.object = false) (stored : state.files[entry.object.key]? = some bytes)
    (plain : entry.deleteAfterQuarantine = false) :
    (processGcEntries [entry] 0 0).exec state = (.ok (1, saturatingAdd 0 entry.object.byteLength),
      { state with
        db := completeGcEntry entry state.clock state.db
        files := state.files.erase entry.object.key
        gcFiles := state.gcFiles.insert entry.place bytes }) := by
  have present : state.files.contains entry.object.key = true := by
    rw [Std.ExtTreeMap.contains_eq_isSome_getElem?, stored, Option.isSome_some]
  have taken : (quarantine entry.operationId entry.object.key).exec state =
    (.ok true, (quarantineFile entry.operationId entry.object.key state).2) := by
    rw [quarantine, Prog.exec_bind_ok]
    have named : validSha256 entry.object.key.2 = true := valid
    refine ⟨(), state, by rw [Prog.exec_of_except, objectPath, ensure, if_pos named], ?_⟩
    rw [Prog.exec_bind_ok]
    refine ⟨true, state, by rw [Prog.query, Prog.exec, present, Prog.exec], ?_⟩
    rw [if_pos rfl, Prog.exec, quarantineFile, stored, Prog.exec]
  rw [processGcEntries, Prog.exec_bind_ok]
  refine ⟨false, state, (exec_transaction_ok _ _ _ _).mpr ⟨state.db, by rw [unreached], rfl⟩, ?_⟩
  rw [if_neg Bool.false_ne_true, Prog.exec_bind_ok]
  refine ⟨(), state, by rw [Prog.exec_of_except, destination_ok entry valid], ?_⟩
  rw [Prog.exec_bind_ok]
  refine ⟨true, _, by rw [Prog.exec_map_error, taken]; rfl, ?_⟩
  rw [Prog.exec_bind_ok]
  refine ⟨(), _, (exec_transaction_ok _ _ _ _).mpr ⟨_, rfl, rfl⟩, ?_⟩
  rw [plain, if_neg Bool.false_ne_true, quarantineFile, stored]
  rfl

namespace ResumeSample

open Sample

-- A revision without threads: its root is all there is to send.
def bare : RevisionRootV4 where
  schemaVersion := 4
  normalizationSchemaVersion := 1
  namespaceId := space
  parentRevision := none
  createdAt := "2026-01-01T00:00:00Z"
  threads := []
  warningCount := 0

def body : Bytes := text bare.toValue
def key : ObjectKey := (.revisionRoot, digestBytes primitives body)
def env : ServerEnv :=
  { Sample.env false with serde := { (Sample.env false).serde with revisionRoot := readBack RevisionRootV4.toValue bare } }
def object : StorageObjectRef := ⟨.revisionRoot, digestBytes primitives body, fileLength body⟩
def accepted (bytes : Bytes) : Prop := bytes = body

def Sent (state : ServerState) : Prop :=
  Gate.Reachable (sending env debug accepted) (ServerState.initialized 0) ⟨state, [], true, []⟩

theorem clash_free : ClashFree env accepted := by
  intro one other first second _
  rw [first, second]

theorem bare_valid : bare.validate = .ok () := by
  simp only [RevisionRootV4.validate, bind_ok, ensure_ok]
  exact ⟨(), ⟨rfl, rfl⟩, (), (by decide : space.version = 7), rfl⟩

theorem bare_short : width primitives bare.toValue ≤ 100000 := by
  have space_ : (writeString space.text).length ≤ 6 * space.text.toList.length + 2 := write_string_length _
  have letters : space.text.toList.length = 36 := by decide +kernel
  rw [letters] at space_
  simp only [RevisionRootV4.toValue, bare]
  generalize space.text = shown at space_ ⊢
  simp [width, widthFields, widthElements, Value.nat, Value.option, writeNumber, digit_length, writeString, escapeChar] at space_ ⊢
  omega

theorem body_small : body.length < 2 ^ 64 := by
  have bound := canonical_json_length primitives bare.toValue
  have short := bare_short
  unfold body text
  omega

theorem body_limit : fileLength body ≤ env.limit key.1 :=
  UInt64.le_trans (short_text _ bare_short) (by decide : (16 * 1024 * 1024 : UInt64) ≤ min (16 * 1024 * 1024) (1024 * 1024 * 1024))

theorem body_fits : (fileLength body).toNat < 2 ^ 63 := by
  have bound := UInt64.le_iff_toNat_le.mp (short_text _ bare_short)
  rw [show (16 * 1024 * 1024 : UInt64).toNat = 16777216 by decide] at bound
  exact lt_of_le_of_lt bound (by decide)

theorem body_named : digestBytes env.lib body = key.2 := rfl

theorem sends : (sending env debug accepted).request .shared (Reply.stored <$> putTypedObject env key (fileLength body) [body]) := by
  refine Sending.put key _ _ fun bytes received => ?_
  simp only [writeVerifiedTemp, List.nil_append, bind_ok, ensure_ok, pure_ok] at received
  obtain ⟨_, _, _, _, _, _, _, _, _, _, same⟩ := received
  exact same.symm

theorem asks (mode : Gate.Mode) (prog : Handler Reply) (asked : Request env debug mode prog) (apart : mode ≠ .shared) :
    (sending env debug accepted).request mode prog := Sending.other mode prog asked apart

def spaced : Database := runCalls primitives calls
def recorded : Database :=
  { spaced with storageObjects := spaced.storageObjects.insert key { byteLength := fileLength body, createdAt := 0 } }

def queuedDb (queue : Std.ExtTreeMap Uuid GcQueueRow) : Database := { recorded with gcQueue := queue }
def rowOf (operationId : Uuid) : GcQueueRow := ⟨operationId, object, .pending, millis hour, none, false⟩
def files : Files := (∅ : Files).insert key body

theorem spaced_empty : spaced.storageObjects = ∅ ∧ spaced.gcQueue = ∅ ∧ spaced.revisionRoots = ∅ ∧ spaced.objectEdges = ∅ := by
  rw [spaced, calls_run]
  exact ⟨rfl, rfl, rfl, rfl⟩

theorem bare_expected : Expected env bare spaced 0 := by
  rw [spaced, calls_run]
  refine ⟨?_, Std.ExtTreeMap.getElem?_empty⟩
  exact (head_state_insert Database.initialized space _ space).trans (if_pos rfl)

theorem record_bare : step primitives spaced (recordUpload (key, body) 0) = recorded := by
  have fits : sqlInteger (fileLength body) key.2 = .ok (fileLength body) := (sql_integer_ok _ _ _).mpr ⟨body_fits, rfl⟩
  have free : ¬ spaced.storageObjects.contains key = true := by
    rw [spaced_empty.1, Std.ExtTreeMap.contains_empty]
    exact Bool.false_ne_true
  have ran : recordStorageObject object 0 spaced = .ok recorded := by
    simp only [recordStorageObject, bind_ok]
    exact ⟨_, fits, if_neg free⟩
  show step primitives spaced (.recordStorageObject object 0) = recorded
  rw [step, Call.run, ran]

theorem nothing_reached (queue : Std.ExtTreeMap Uuid GcQueueRow) : (reachableObjects (queuedDb queue) hour).contains key = false := by
  refine Bool.eq_false_iff.mpr fun reached => ?_
  obtain ⟨start, listed, _⟩ := (mem_reachable _ _ _).mp (Std.ExtTreeSet.contains_iff_mem.mp reached)
  rw [protectedRoots, show (queuedDb queue).revisionRoots = ∅ from spaced_empty.2.2.1,
    Std.ExtTreeMap.toList_eq_nil_iff.mpr rfl] at listed
  cases listed

-- The one object is listed an hour later, whatever is queued.
theorem plan_lists (queue : Std.ExtTreeMap Uuid GcQueueRow) : ∃ plan, buildGcPlan primitives hour (queuedDb queue) = .ok plan ∧
    plan.candidates = [object] ∧ validSha256 plan.planFingerprint = true := by
  have held : recorded.storageObjects.toList = [(key, { byteLength := fileLength body, createdAt := 0 })] := by
    rw [recorded, spaced_empty.1]
    exact Keyed.single_to_list key _
  have old : (0 : Int) ≤ millis (hour - hour) := by decide
  have sum : checkedSum [fileLength body] 0 = some (fileLength body) :=
    (checked_sum_ok _ _ _).mpr (by rw [UInt64.toNat_zero, Nat.zero_add, List.map_singleton, List.sum_singleton])
  have eligible : recorded.storageObjects.toList.filter (fun entry => entry.2.createdAt ≤ millis (hour - hour) &&
      !(reachableObjects (queuedDb queue) hour).contains entry.1) = [(key, ⟨fileLength body, 0⟩)] := by
    rw [held, List.filter_cons_of_pos, List.filter_nil]
    rw [nothing_reached queue, Bool.not_false, Bool.and_true]
    exact decide_eq_true old
  simp only [buildGcPlan, bind_ok, found_ok, pure_ok]
  rw [show (queuedDb queue).storageObjects = recorded.storageObjects from rfl, eligible]
  exact ⟨_, ⟨_, sum, rfl⟩, rfl, digest_bytes_valid primitives _⟩

theorem enqueue_runs (operationId id : Uuid) (queue : Std.ExtTreeMap Uuid GcQueueRow) (fresh : queue[id]? = none) :
    ∃ fingerprint, validSha256 fingerprint = true ∧
      enqueueGc primitives fingerprint operationId (fun _ => id) hour (queuedDb queue) =
        .ok (queuedDb (queue.insert id (rowOf operationId)), operationId, [gcEntry id (rowOf operationId)]) := by
  obtain ⟨plan, built, single, valid⟩ := plan_lists queue
  exact ⟨_, valid, enqueue_single primitives operationId (fun _ => id) hour (queuedDb queue) plan object built single body_fits fresh⟩

theorem asks_collect (fingerprint : String) (operationId id : Uuid) :
    (sending env debug accepted).request .exclusive
    (Reply.collected <$> quarantineServerGc env fingerprint operationId fun _ => id) :=
  asks _ _ (Request.quarantineServerGc fingerprint operationId fun _ => id) nofun

section Collects

variable (operationId id : Uuid) (queue : Std.ExtTreeMap Uuid GcQueueRow) (fresh : queue[id]? = none)
  (gcFiles : Std.ExtTreeMap (Uuid × ObjectKey) Bytes) (sent : Sent ⟨queuedDb queue, files, gcFiles, hour⟩)

include fresh sent

-- The entry is enqueued and the request goes no further.
theorem enqueue_cut : Sent ⟨queuedDb (queue.insert id (rowOf operationId)), files, gcFiles, hour⟩ := by
  obtain ⟨fingerprint, valid, enqueued⟩ := enqueue_runs operationId id queue fresh
  refine Gate.request_cut _ _ .exclusive _ (asks_collect fingerprint operationId id) _ _ _ ?_ sent
  have checks : (Prog.ofExcept (σ := ServerState) (ensure (validSha256 fingerprint = true)
      (HttpError.invalidDigest "invalid GC plan fingerprint"))).exec ⟨queuedDb queue, files, gcFiles, hour⟩ =
        (.ok (), ⟨queuedDb queue, files, gcFiles, hour⟩) := by
    rw [Prog.exec_of_except, ensure, if_pos valid]
  have commits := (exec_transaction_ok (fun now db => enqueueGc primitives fingerprint operationId (fun _ => id) now db)
    ⟨queuedDb queue, files, gcFiles, hour⟩ _ _).mpr ⟨_, enqueued, rfl⟩
  have cut := Prog.cut_exec (transaction fun now db => enqueueGc primitives fingerprint operationId (fun _ => id) now db)
    ⟨queuedDb queue, files, gcFiles, hour⟩
  rw [commits] at cut
  exact Prog.cut_map _ _ _ _ (Prog.cut_later _ _ _ _ _ _ checks (Prog.cut_first _ _ _ _ cut))

-- The entry is enqueued and its object is taken away.
theorem collect_runs : Sent ⟨completeGcEntry (gcEntry id (rowOf operationId)) hour (queuedDb (queue.insert id (rowOf operationId))),
    files.erase key, gcFiles.insert (operationId, key) body, hour⟩ := by
  obtain ⟨fingerprint, valid, enqueued⟩ := enqueue_runs operationId id queue fresh
  have sent := Gate.request_reachable _ _ .exclusive _ (asks_collect fingerprint operationId id) _ _ sent
  have processed := process_single (gcEntry id (rowOf operationId))
    ⟨queuedDb (queue.insert id (rowOf operationId)), files, gcFiles, hour⟩ body (digest_bytes_valid primitives body)
      (nothing_reached _)
    ((Keyed.lookup_insert _ _ _ _).trans (if_pos rfl)) rfl
  have runs : (quarantineServerGc env fingerprint operationId fun _ => id).exec ⟨queuedDb queue, files, gcFiles, hour⟩ =
      (.ok ⟨operationId, 1, saturatingAdd 0 object.byteLength⟩,
        ⟨completeGcEntry (gcEntry id (rowOf operationId)) hour (queuedDb (queue.insert id (rowOf operationId))),
          files.erase key, gcFiles.insert (operationId, key) body, hour⟩) := by
    rw [quarantineServerGc, Prog.exec_bind_ok]
    refine ⟨(), _, by rw [Prog.exec_of_except, ensure, if_pos valid], ?_⟩
    rw [Prog.exec_bind_ok]
    refine ⟨_, _, (exec_transaction_ok _ _ _ _).mpr ⟨_, enqueued, rfl⟩, ?_⟩
    rw [Prog.exec_bind_ok]
    exact ⟨_, _, processed, rfl⟩
  rw [Prog.exec_map, runs] at sent
  exact sent

end Collects

theorem sent_spaced : Sent ⟨spaced, ∅, ∅, 0⟩ := by
  have booted : Sent (ServerState.initialized 0) :=
    Gate.boot_reachable _ _ Reply.resumed _ (LeakSample.boot_idle env debug (ServerState.initialized 0) rfl)
  have served := Gate.request_reachable _ _ .free _ (asks _ _ (Request.createNamespace "main" space) nofun) _ _ booted
  rw [Prog.exec_map, Api.createNamespace, transaction, Prog.transact, Prog.exec, Prog.exec_of_except, Prog.attemptStep] at served
  rw [Sent, spaced, runCalls, calls, List.foldl_cons, List.foldl_nil, step, Call.run]
  cases made : createNamespace "main" space Database.initialized with
  | error reason => simpa only [ServerState.initialized, made, Functor.map, Except.map] using served
  | ok pair => simpa only [ServerState.initialized, made, Functor.map, Except.map] using served

theorem sent_recorded : Sent ⟨queuedDb ∅, files, ∅, hour⟩ := by
  have sent := put_reachable env key body ⟨spaced, ∅, ∅, 0⟩ Std.ExtTreeMap.not_mem_empty body_named body_small body_limit _ _ sends _
    sent_spaced
  have recorded_ : step env.lib spaced (recordUpload (key, body) 0) = queuedDb ∅ := by
    show step primitives spaced (recordUpload (key, body) 0) = queuedDb ∅
    rw [record_bare, queuedDb, ← spaced_empty.2.1]
    rfl
  rw [recorded_] at sent
  exact sent.tail (.drift _ _ ⟨hour, by decide, rfl⟩)

-- The first entry waits when the second has taken the object away.
def queue : Std.ExtTreeMap Uuid GcQueueRow := ((∅ : Std.ExtTreeMap Uuid GcQueueRow).insert 1 (rowOf 11)).insert 2 (rowOf 12)
def takenDb : Database := completeGcEntry (gcEntry 2 (rowOf 12)) hour (queuedDb queue)
def again : Files := (files.erase key).insert key body
instance takenTrans : Std.TransOrd (Uuid × ObjectKey) := inferInstance

def taken : Std.ExtTreeMap (Uuid × ObjectKey) Bytes := (∅ : Std.ExtTreeMap (Uuid × ObjectKey) Bytes).insert (12, key) body

theorem second_fresh : ((∅ : Std.ExtTreeMap Uuid GcQueueRow).insert 1 (rowOf 11))[(2 : Uuid)]? = none :=
  (Keyed.lookup_insert _ _ _ _).trans ((if_neg (by decide)).trans Std.ExtTreeMap.getElem?_empty)

theorem sent_again : Sent ⟨takenDb, again, taken, hour⟩ := by
  have waits := enqueue_cut 11 1 ∅ Std.ExtTreeMap.getElem?_empty ∅ sent_recorded
  have collected := collect_runs 12 2 _ second_fresh ∅ waits
  have absent : key ∉ files.erase key := fun present => (Std.ExtTreeMap.mem_erase.mp present).1 Std.ReflOrd.compare_self
  exact put_cut_reachable env key body ⟨takenDb, files.erase key, taken, hour⟩ absent body_named body_small body_limit _ _
    sends _ collected

theorem taken_calls : ∃ calls, runCalls primitives calls = takenDb := by
  obtain ⟨first, _, one⟩ := enqueue_runs 11 1 ∅ Std.ExtTreeMap.getElem?_empty
  obtain ⟨second, _, two⟩ := enqueue_runs 12 2 _ second_fresh
  refine ⟨calls ++ [recordUpload (key, body) 0, .enqueueGc first 11 (fun _ => 1) hour, .enqueueGc second 12 (fun _ => 2) hour,
    .completeGcEntry (gcEntry 2 (rowOf 12)) hour], ?_⟩
  have unqueued : recorded = queuedDb ∅ := by
    rw [queuedDb, ← spaced_empty.2.1]
    rfl
  rw [runCalls, List.foldl_append, List.foldl_cons, List.foldl_cons, List.foldl_cons, List.foldl_cons, List.foldl_nil,
    show calls.foldl (step primitives) Database.initialized = spaced from rfl, record_bare, unqueued]
  simp only [step, Call.run, one, two, Functor.map, Except.map]
  rfl

theorem bare_uploaded : Uploaded env (catalog false) again bare := by
  have stored : StoredAs env again (readBack RevisionRootV4.toValue bare) RevisionRootV4.toValue key bare := by
    refine ⟨(Keyed.lookup_insert _ _ _ _).trans (if_pos rfl), body_named, ?_, body_limit⟩
    unfold readBack
    exact if_pos rfl
  exact ⟨stored, bare_valid, fun _ => nofun⟩

theorem bare_committable : Committable env (catalog false) bare := by
  have size : ((catalog false).graph env bare).length ≤ 1 := graph_of_length _
  have dated : decide ("2026-01-01T00:00:00Z" = "2026-01-01T00:00:00Z") = true := decide_eq_true rfl
  refine ⟨fun _ => nofun, fun _ => nofun, dated, (by decide : 0 % 2 ^ 64 < 2 ^ 63), by omega, few_small _ ?_ fun length member => ?_⟩
  · rw [List.length_map]
    omega
  · obtain ⟨object, inside, rfl⟩ := List.mem_map.mp member
    have same := List.mem_singleton.mp (graph_of_member _ object inside)
    rw [same]
    exact UInt64.le_iff_toNat_le.mp (short_text _ bare_short)

theorem queue_rows (id : Uuid) (row : GcQueueRow) (stored : takenDb.gcQueue[id]? = some row) :
    id = 1 ∧ row = rowOf 11 ∨ id = 2 ∧ row.operationId = 12 := by
  have found := (Keyed.lookup_modify queue 2 id _).symm.trans stored
  by_cases second : id = 2
  · rw [if_pos second, second, queue, Keyed.lookup_insert, if_pos rfl] at found
    cases found
    exact .inr ⟨second, rfl⟩
  · rw [if_neg second, queue, Keyed.lookup_insert, if_neg second, Keyed.lookup_insert] at found
    by_cases first : id = 1
    · rw [if_pos first] at found
      cases found
      exact .inl ⟨first, rfl⟩
    · rw [if_neg first, Std.ExtTreeMap.getElem?_empty] at found
      cases found

theorem taken_distinct : DistinctPlaces takenDb := by
  intro id other row next stored known same
  have operations : row.operationId = next.operationId := congrArg Prod.fst same
  rcases queue_rows id row stored with ⟨rfl, rfl⟩ | ⟨rfl, one⟩ <;> rcases queue_rows other next known with ⟨rfl, rfl⟩ | ⟨rfl, two⟩
  · rfl
  · rw [two] at operations
    exact absurd operations (by decide)
  · rw [one] at operations
    exact absurd operations (by decide)
  · rfl

theorem first_waits : takenDb.gcQueue[(1 : Uuid)]? = some (rowOf 11) := by
  refine (Keyed.lookup_modify queue 2 1 _).trans ((if_neg (by decide)).trans ?_)
  rw [queue, Keyed.lookup_insert, if_neg (by decide), Keyed.lookup_insert, if_pos rfl]

-- The first entry is pending, and its object is committed without a row.
theorem sent_stuck : ∃ state, Sent state ∧ DistinctPlaces state.db ∧ ¬ Resumable state := by
  obtain ⟨calls, ran⟩ := taken_calls
  have records : Expected env bare (runCalls primitives calls) 0 := ran ▸ quiet_expected env bare 0 spaced _ rfl rfl bare_expected
  obtain ⟨response, after, run, created⟩ :=
    committable_created env debug bare (catalog false) again taken hour calls 0 bare_uploaded records bare_committable
  rw [show runCalls env.lib calls = takenDb from ran] at run
  have reached := created_reached env debug bare bare_valid 0 _ after response run created
  have untouched :=
    Prog.acts_exec untouched_refl untouched_trans _ (commit_acts env debug untouched_db bare.namespaceId ⟨none, 0, bare⟩)
    ⟨takenDb, again, taken, hour⟩
  rw [show (commitRevisionRootV4 env debug bare.namespaceId ⟨none, 0, bare⟩).exec ⟨takenDb, again, taken, hour⟩ =
    (.ok response, after)
    from run] at untouched
  have asked : (sending env debug accepted).request .shared
      (Reply.committed <$> commitRevisionRootV4 env debug bare.namespaceId ⟨none, 0, bare⟩) :=
    Sending.commit bare.namespaceId ⟨none, 0, bare⟩
  have sent := Gate.request_reachable _ _ .shared _ asked _ _ sent_again
  rw [Prog.exec_map, show (commitRevisionRootV4 env debug bare.namespaceId ⟨none, 0, bare⟩).exec ⟨takenDb, again, taken, hour⟩ =
    (.ok response, after) from run] at sent
  refine ⟨after, sent, ?_, fun resumable => ?_⟩
  · intro id other row next stored known
    rw [untouched.queue] at stored known
    exact taken_distinct id other row next stored known
  · have queued : Queued after.db key := ⟨1, rowOf 11, untouched.queue ▸ first_waits, rfl, rfl⟩
    have installed : key ∈ after.files := untouched.files ▸ Std.ExtTreeMap.mem_insert_self
    have recorded := (resumable.recorded key queued reached).mpr installed
    rw [untouched.rows] at recorded
    exact (Std.ExtTreeMap.mem_erase.mp recorded).1 Std.ReflOrd.compare_self

-- An entry that was enqueued when the request stopped.
def interrupted : ServerState := ⟨queuedDb ((∅ : Std.ExtTreeMap Uuid GcQueueRow).insert 1 (rowOf 11)), files, ∅, hour⟩

theorem interrupted_row (id : Uuid) (row : GcQueueRow) (stored : interrupted.db.gcQueue[id]? = some row) :
    id = 1 ∧ row = rowOf 11 := by
  replace stored := (Keyed.lookup_insert _ _ _ _).symm.trans stored
  by_cases same : id = 1
  · rw [if_pos same] at stored
    exact ⟨same, (Option.some.inj stored).symm⟩
  · rw [if_neg same, Std.ExtTreeMap.getElem?_empty] at stored
    cases stored

theorem interrupted_distinct : DistinctPlaces interrupted.db := by
  intro id other row next stored known _
  rw [(interrupted_row id row stored).1, (interrupted_row other next known).1]

theorem interrupted_resumable : Resumable interrupted := by
  refine ⟨fun id row stored deletes => ?_, fun key_ queued reached => ?_⟩
  · rw [(interrupted_row id row stored).2] at deletes
    cases deletes
  · obtain ⟨id, row, stored, _, rfl⟩ := queued
    rw [(interrupted_row id row stored).2] at reached
    exact absurd (Std.ExtTreeSet.contains_iff_mem.mpr reached) (Bool.eq_false_iff.mp (nothing_reached _))

end ResumeSample

open ResumeSample in
theorem interrupted_collection_resumes : Resumes interrupted :=
  (resumption_settles env Sample.debug accepted clash_free 0 ⟨interrupted, [], true, []⟩
    (enqueue_cut 11 1 ∅ Std.ExtTreeMap.getElem?_empty ∅ sent_recorded) interrupted_distinct).mpr interrupted_resumable

-- Two entries name one object: the second takes it away, it comes again without its
-- row, and the first is cancelled because the object is committed.
open ResumeSample in
theorem requeued_object_unrecorded :
    ¬ ∀ (env : ServerEnv) (debug : Option String → String) (accepted : Bytes → Prop) (now : Nanos) (world : ServerWorld),
      ClashFree env accepted → Gate.Reachable (sending env debug accepted) (ServerState.initialized now) world →
        DistinctPlaces world.state.db → Resumes world.state := by
  intro claim
  obtain ⟨state, sent, distinct, stuck⟩ := sent_stuck
  have named := reachable_named env Sample.debug accepted 0 _ sent
  exact stuck ((resumes_iff clash_free state distinct named).mp
    (claim env Sample.debug accepted 0 ⟨state, [], true, []⟩ clash_free sent distinct))

end SessionSync.Server
