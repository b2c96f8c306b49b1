import SessionSync.Server.UploadPresence
import SessionSync.Server.GcSafety

set_option autoImplicit false

namespace SessionSync.Server

open SessionSync.Core Checked Storage

abbrev ServerWorld := Gate.World ServerState HttpError Reply

-- The hour of the plan, as the database measures it.
def uploadGrace : Millis := 60 * 60 * 1000

theorem put_ends (env : ServerEnv) (key : ObjectKey) (expectedLength : UInt64) (stream : List Bytes) :
    putTypedObject env key expectedLength stream = (do
      Prog.ofExcept (ensure (validSha256 key.2 = true) (.invalidDigest "invalid SHA-256 digest"))
      Prog.ofExcept (ensure (expectedLength ≤ key.1.maxBytes) (.payloadTooLarge "typed object exceeds its kind limit"))
      let created ← (putStream env key expectedLength stream).mapError .objectStore
      acknowledgePut key expectedLength created) := rfl

-- The last action of a PUT that is running goes through.
inductive Acknowledged (key : ObjectKey) (expectedLength : UInt64) : ServerWorld → ServerWorld → Prop where
  | mk (state : ServerState) (db : Database) (before after : List (Gate.Mode × Handler Reply)) (created : Bool) (replies : List Reply)
      (run : recordStorageObject { kind := key.1, sha256 := key.2, byteLength := expectedLength } state.clock state.db = .ok db) :
      Acknowledged key expectedLength
        ⟨state, before ++ (.shared, Reply.stored <$> acknowledgePut key expectedLength created) :: after, true, replies⟩
        ⟨{ state with db := db }, before ++ (.shared, .ret (.stored created)) :: after, true, replies⟩

theorem acknowledge_once (key : ObjectKey) (expectedLength : UInt64) (created : Bool) (state : ServerState) (db : Database)
    (run : recordStorageObject { kind := key.1, sha256 := key.2, byteLength := expectedLength } state.clock state.db = .ok db) :
    ∃ (step : ServerState → Except HttpError Unit × ServerState) (rest : Except HttpError Unit → Handler Reply),
      Reply.stored <$> acknowledgePut key expectedLength created = .act step rest ∧ step state = (.ok (), { state with db := db }) ∧
        rest (.ok ()) = .ret (.stored created) := by
  refine ⟨_, _, rfl, ?_, rfl⟩
  simp only [Prog.attemptStep, run]
  rfl

theorem acknowledged_step (env : ServerEnv) (debug : Option String → String) (key : ObjectKey) (expectedLength : UInt64)
    (world recorded : ServerWorld) (acknowledged : Acknowledged key expectedLength world recorded) :
    Gate.Step (server env debug) world recorded := by
  obtain ⟨state, db, before, after, created, replies, run⟩ := acknowledged
  obtain ⟨step, rest, shape, moves, ends⟩ := acknowledge_once key expectedLength created state db run
  have acts := @Gate.Step.act ServerState HttpError Reply (server env debug) state before after .shared _ step rest true replies
  rw [moves, ends] at acts
  rw [shape]
  exact acts

section Grace

variable (key : ObjectKey) (since : Millis)

-- A history purge made since then queued the object.
def PurgeQueued (state : ServerState) : Prop :=
  ∃ (id : Uuid) (row : GcQueueRow), state.db.gcQueue[id]? = some row ∧ row.object.key = key ∧ row.deleteAfterQuarantine = true ∧
    since ≤ row.createdAt

def Unqueued (db : Database) : Prop :=
  ∀ (id : Uuid) (row : GcQueueRow), db.gcQueue[id]? = some row → row.state = .pending → row.object.key ≠ key

def Released (state : ServerState) : Prop := since + uploadGrace ≤ millis state.clock ∨ PurgeQueued key since state

-- `tracked` says that no entry for the object was pending when it was acknowledged.
structure Graced (tracked : Prop) (state : ServerState) : Prop where
  current : since ≤ millis state.clock
  young : ∀ (row : StorageObjectRow), state.db.storageObjects[key]? = some row → since ≤ row.createdAt
  held : tracked → Released key since state ∨ key ∈ state.files ∧ Unqueued key state.db

structure Onward (state after : ServerState) : Prop where
  clock : state.clock ≤ after.clock
  queued : PurgeQueued key since state → PurgeQueued key since after

theorem onward_released (state after : ServerState) (moved : Onward key since state after) (released : Released key since state) :
    Released key since after := by
  rcases released with late | queued
  · exact .inl (le_trans late (Int.ediv_le_ediv (by decide) moved.clock))
  · exact .inr (moved.queued queued)

theorem mild_onward (state after : ServerState) (moved : Mild state after) : Onward key since state after := by
  refine ⟨le_of_eq moved.clock.symm, fun queued => ?_⟩
  obtain ⟨id, row, stored, own, deletes, later⟩ := queued
  obtain ⟨next, known, same, created, flag⟩ := moved.entries id row stored
  exact ⟨id, next, known, by rw [same, own], flag.trans deletes, created ▸ later⟩

theorem mild_graced (tracked : Prop) (state after : ServerState) (graced : Graced key since tracked state)
    (moved : Mild state after) :
    Graced key since tracked after := by
  refine ⟨?_, fun row stored => ?_, fun tracks => ?_⟩
  · rw [moved.clock]
    exact graced.current
  · rcases moved.rows key row stored with old | new
    · exact graced.young row old
    · rw [new]
      exact graced.current
  · rcases graced.held tracks with released | ⟨present, unqueued⟩
    · exact .inl (onward_released key since state after (mild_onward key since state after moved) released)
    · refine .inr ⟨?_, fun id row stored waits => unqueued id row (moved.pending id row stored waits) waits⟩
      obtain ⟨bytes, stored⟩ := Option.isSome_iff_exists.mp (Std.ExtTreeMap.mem_iff_isSome_getElem?.mp present)
      exact Std.ExtTreeMap.mem_iff_isSome_getElem?.mpr (by rw [moved.files key bytes stored, Option.isSome_some])

theorem millis_hour (now : Nanos) : millis (now - hour) = millis now - uploadGrace := by
  have whole : ∀ time : Int, (time - 3600000000000) / 1000000 = time / 1000000 - 3600000 := by
    intro time
    omega
  exact whole now

-- What a plan lists is an hour old.
theorem candidate_old (lib : Primitives) (now : Nanos) (db : Database) (plan : ServerGcPlan) (run : buildGcPlan lib now db = .ok plan)
    (young : ∀ (row : StorageObjectRow), db.storageObjects[key]? = some row → since ≤ row.createdAt)
    (member : key ∈ plan.candidates.map StorageObjectRef.key) : since + uploadGrace ≤ millis now := by
  simp only [buildGcPlan, bind_ok, pure_ok] at run
  obtain ⟨total, _, rfl⟩ := run
  obtain ⟨object, listed, same⟩ := List.mem_map.mp member
  obtain ⟨entry, eligible, rfl⟩ := List.mem_map.mp listed
  obtain ⟨stored, fits⟩ := List.mem_filter.mp eligible
  rw [Bool.and_eq_true, decide_eq_true_eq] at fits
  have own : entry.1 = key := same
  have row := young entry.2 (own ▸ Std.ExtTreeMap.mem_toList_iff_getElem?_eq_some.mp stored)
  rw [millis_hour] at fits
  exact le_sub_iff_add_le.mp (le_trans row fits.1)

-- What enqueueing these objects does to the queue.
structure Enqueued (purge : Bool) (createdAt : Millis) (objects : List ObjectKey) (db after : Database) : Prop where
  rows : after.storageObjects = db.storageObjects
  kept : ∀ (id : Uuid) (row : GcQueueRow), db.gcQueue[id]? = some row → after.gcQueue[id]? = some row
  fresh : ∀ (id : Uuid) (row : GcQueueRow), after.gcQueue[id]? = some row → db.gcQueue[id]? = some row ∨ row.object.key ∈ objects
  queued : ∀ key ∈ objects, ∃ (id : Uuid) (row : GcQueueRow), after.gcQueue[id]? = some row ∧ row.object.key = key ∧
    row.deleteAfterQuarantine = purge ∧ row.createdAt = createdAt

theorem enqueue_objects_enqueued (operationId : Uuid) (purge : Bool) (createdAt : Millis) (objects : List (Uuid × StorageObjectRef))
    (db after : Database) (entries : List GcQueueEntry)
    (run : enqueueObjects operationId purge createdAt objects db = .ok (after, entries)) :
    Enqueued purge createdAt (objects.map fun object => object.2.key) db after ∧
      entries.map (·.object.key) = objects.map fun object => object.2.key := by
  induction objects generalizing db entries with
  | nil =>
      cases run
      exact ⟨⟨rfl, fun _ _ stored => stored, fun _ _ stored => .inl stored, fun key member => absurd member List.not_mem_nil⟩, rfl⟩
  | cons object rest ih =>
      simp only [enqueueObjects, bind_ok, insert_new_ok] at run
      obtain ⟨length, _, _, ⟨free, rfl⟩, ⟨next, later⟩, tail, done⟩ := run
      cases done
      obtain ⟨enqueued, names⟩ := ih _ _ tail
      refine ⟨⟨enqueued.rows, fun id row stored => ?_, fun id row stored => ?_, fun key member => ?_⟩, ?_⟩
      · refine enqueued.kept id row ((Keyed.lookup_insert _ _ _ _).trans ?_)
        by_cases same : id = object.1
        · rw [same, free] at stored
          cases stored
        · rw [if_neg same]
          exact stored
      · rcases enqueued.fresh id row stored with before | listed
        · replace before := (Keyed.lookup_insert _ _ _ _).symm.trans before
          by_cases same : id = object.1
          · rw [if_pos same] at before
            cases before
            exact .inr List.mem_cons_self
          · rw [if_neg same] at before
            exact .inl before
        · exact .inr (List.mem_cons_of_mem _ listed)
      · rcases List.mem_cons.mp member with rfl | listed
        · exact ⟨object.1, _, enqueued.kept _ _ ((Keyed.lookup_insert _ _ _ _).trans (if_pos rfl)), rfl, rfl, rfl⟩
        · exact enqueued.queued key listed
      · exact congrArg (object.2.key :: ·) names

theorem place_keys (ids : Nat → Uuid) (objects : List StorageObjectRef) :
    (objects.mapIdx fun place object => (ids place, object)).map (fun object => object.2.key) = objects.map StorageObjectRef.key := by
  apply List.ext_getElem?
  intro place
  rw [List.getElem?_map, List.getElem?_mapIdx, List.getElem?_map, Option.map_map]
  rfl

theorem enqueue_gc_enqueued (lib : Primitives) (fingerprint : String) (operationId result : Uuid) (ids : Nat → Uuid) (now : Nanos)
    (db after : Database) (entries : List GcQueueEntry)
    (run : enqueueGc lib fingerprint operationId ids now db = .ok (after, result, entries)) :
    ∃ plan, buildGcPlan lib now db = .ok plan ∧ Enqueued false (millis now) (plan.candidates.map StorageObjectRef.key) db after ∧
      entries.map (·.object.key) = plan.candidates.map StorageObjectRef.key := by
  simp only [enqueueGc, bind_ok] at run
  obtain ⟨plan, built, _, _, ⟨next, queued⟩, enqueued, done⟩ := run
  cases done
  have both := enqueue_objects_enqueued operationId false _ _ db _ _ enqueued
  rw [place_keys] at both
  exact ⟨plan, built, both⟩

theorem enqueued_onward (purge : Bool) (createdAt : Millis) (objects : List ObjectKey) (state : ServerState) (db : Database)
    (enqueued : Enqueued purge createdAt objects state.db db) : Onward key since state { state with db := db } := by
  refine ⟨le_refl _, fun queued => ?_⟩
  obtain ⟨id, row, stored, rest⟩ := queued
  exact ⟨id, row, enqueued.kept id row stored, rest⟩

theorem enqueued_graced (tracked : Prop) (purge : Bool) (objects : List ObjectKey) (state : ServerState) (db : Database)
    (enqueued : Enqueued purge (millis state.clock) objects state.db db) (graced : Graced key since tracked state)
    (listed : key ∈ objects → Released key since { state with db := db }) : Graced key since tracked { state with db := db } := by
  refine ⟨graced.current, fun row stored => ?_, fun tracks => ?_⟩
  · rw [enqueued.rows] at stored
    exact graced.young row stored
  · rcases graced.held tracks with released | ⟨present, unqueued⟩
    · exact .inl (onward_released key since state _ (enqueued_onward key since purge _ objects state db enqueued) released)
    · by_cases inside : key ∈ objects
      · exact .inl (listed inside)
      · refine .inr ⟨present, fun id row stored waits same => ?_⟩
        rcases enqueued.fresh id row stored with before | new
        · exact unqueued id row before waits same
        · exact inside (same ▸ new)

variable (tracked : Prop)

def GracedGuar (state after : ServerState) : Prop := Graced key since tracked after ∧ Onward key since state after

abbrev GracedWp {ε α : Type} (prog : Prog ServerState ε α) (post : α → ServerState → Prop) (state : ServerState) : Prop :=
  prog.Wp (Graced key since tracked) (Onward key since) (GracedGuar key since tracked) (Prog.okay post) state

theorem onward_refl (state : ServerState) : Onward key since state state := ⟨le_refl _, id⟩

theorem onward_trans (a b c : ServerState) (first : Onward key since a b) (second : Onward key since b c) : Onward key since a c :=
  ⟨le_trans first.clock second.clock, second.queued ∘ first.queued⟩

theorem graced_idle (state : ServerState) (graced : Graced key since tracked state) : GracedGuar key since tracked state state :=
  ⟨graced, onward_refl key since state⟩

theorem graced_seq {ε α β : Type} (prog : Prog ServerState ε α) (next : α → Prog ServerState ε β) (post : β → ServerState → Prop)
    (state : ServerState) (first : GracedWp key since tracked prog
      (fun value seen => GracedWp key since tracked (next value) post seen) state) :
    GracedWp key since tracked (prog >>= next) post state := Prog.wp_seq (onward_refl key since) prog next post state first

-- The entries that are being processed leave the object alone, or may have it.
def Spared (entries : List GcQueueEntry) (state : ServerState) : Prop :=
  tracked → Released key since state ∨ ∀ entry ∈ entries, entry.object.key ≠ key

theorem onward_spared (entries : List GcQueueEntry) (state after : ServerState) (moved : Onward key since state after)
    (spared : Spared key since tracked entries state) : Spared key since tracked entries after := fun tracks =>
  Or.imp_left (onward_released key since state after moved) (spared tracks)

-- A program of mild actions keeps whatever time cannot end.
theorem mild_wp {ε α : Type} (prog : Prog ServerState ε α) (acts : prog.Acts Mild) (stays : ServerState → Prop)
    (onward : ∀ state after, Onward key since state after → stays state → stays after) (state : ServerState) (yes : stays state) :
    prog.Wp (Graced key since tracked) (Onward key since) (GracedGuar key since tracked) (fun _ => stays) state := by
  apply Prog.wp_of_acts _ _ _ stays prog acts _ onward _ state yes
  · exact fun before after graced moved =>
      ⟨mild_graced key since tracked before after graced moved, mild_onward key since before after moved⟩
  · exact fun before after moved => onward before after (mild_onward key since before after moved)

theorem mild_then {ε α : Type} (prog : Prog ServerState ε α) (acts : prog.Acts Mild) (stays : ServerState → Prop)
    (onward : ∀ state after, Onward key since state after → stays state → stays after) (state : ServerState) (yes : stays state)
    (post : α → ServerState → Prop) (later : ∀ value seen, stays seen → post value seen) :
    GracedWp key since tracked prog post state :=
  Prog.wp_mono prog _ _ state (fun _ seen holds value _ => later value seen holds)
    (mild_wp key since tracked prog acts stays onward state yes)

theorem take_graced (operationId : Uuid) (taken : ObjectKey) (state : ServerState) (graced : Graced key since tracked state)
    (other : tracked → Released key since state ∨ taken ≠ key) :
    GracedGuar key since tracked state (quarantineFile operationId taken state).2 := by
  unfold quarantineFile
  cases stored : state.files[taken]? with
  | none => exact graced_idle key since tracked state graced
  | some bytes =>
      have onward : Onward key since state
          { state with files := state.files.erase taken, gcFiles := state.gcFiles.insert (operationId, taken) bytes } :=
        ⟨le_refl _, id⟩
      refine ⟨⟨graced.current, graced.young, fun tracks => ?_⟩, onward⟩
      rcases graced.held tracks with released | ⟨present, unqueued⟩
      · exact .inl released
      · rcases other tracks with released | different
        · exact .inl released
        · refine .inr ⟨?_, unqueued⟩
          rw [Std.ExtTreeMap.mem_erase, ne_eq, Std.LawfulEqOrd.compare_eq_iff_eq]
          exact ⟨different, present⟩

theorem quarantine_graced (operationId : Uuid) (taken : ObjectKey) (stays : ServerState → Prop)
    (onward : ∀ state after, Onward key since state after → stays state → stays after)
    (other : ∀ state, stays state → tracked → Released key since state ∨ taken ≠ key) (state : ServerState) (yes : stays state) :
    GracedWp key since tracked (quarantine operationId taken) (fun _ => stays) state := by
  apply graced_seq
  apply mild_then key since tracked _ (Prog.steps_of_except _ _) stays onward state yes
  intro _ seen holds
  apply graced_seq
  apply mild_then key since tracked _ (query_acts _) stays onward seen holds
  intro present mid holds
  split
  · apply Prog.wp_act
    intro now moved graced
    have keeps := take_graced key since tracked operationId taken now graced (other now (onward mid now moved holds))
    exact ⟨keeps, fun last later _ => onward _ last later (onward now _ keeps.2 (onward mid now moved holds))⟩
  · exact mild_then key since tracked _ (query_acts _) stays onward mid holds _ fun _ _ yes => yes

theorem process_graced (entries : List GcQueueEntry) (count : Nat) (bytes : UInt64) (state : ServerState)
    (spared : Spared key since tracked entries state) :
    GracedWp key since tracked (processGcEntries entries count bytes) (fun _ _ => True) state := by
  induction entries generalizing count bytes state with
  | nil =>
      apply Prog.wp_pure
      exact fun _ _ _ => trivial
  | cons entry rest ih =>
      have onward := onward_spared key since tracked (entry :: rest)
      have tail : ∀ seen, Spared key since tracked (entry :: rest) seen → Spared key since tracked rest seen :=
        fun seen holds tracks =>
        Or.imp_right (fun each other member => each other (List.mem_cons_of_mem _ member)) (holds tracks)
      have reads : (transaction fun now db => .ok (db, gcObjectIsReachable db now entry.object)).Acts Mild :=
        acts_transaction _ mild_refl fun at_ db value run => by
          cases run
          exact mild_refl at_
      apply graced_seq
      apply mild_then key since tracked _ reads (Spared key since tracked (entry :: rest)) onward state spared
      intro reachable seen holds
      split
      · have cancels : (transaction fun _ db => .ok (Server.cancelGcEntry entry.id db, ())).Acts Mild :=
          acts_transaction _ mild_refl fun at_ db value run => by
            cases run
            exact cancel_mild entry.id at_
        apply graced_seq
        apply mild_then key since tracked _ cancels (Spared key since tracked (entry :: rest)) onward seen holds
        exact fun _ mid holds => ih count bytes mid (tail mid holds)
      · have completes : (transaction fun now db => .ok (Server.completeGcEntry entry now db, ())).Acts Mild :=
          acts_transaction _ mild_refl fun at_ db value run => by
            cases run
            exact complete_mild entry at_.clock at_
        apply graced_seq
        apply mild_then key since tracked _ (Prog.steps_of_except _ _) (Spared key since tracked (entry :: rest)) onward seen holds
        intro _ mid holds
        apply graced_seq
        apply Prog.wp_rename_error
        refine Prog.wp_mono _ _ _ mid (fun outcome now taken value same => ?_)
          (quarantine_graced key since tracked entry.operationId entry.object.key (Spared key since tracked (entry :: rest)) onward
            (fun at_ holds tracks => Or.imp_right (fun each => each entry List.mem_cons_self) (holds tracks)) mid holds)
        apply graced_seq
        apply mild_then key since tracked _ completes (Spared key since tracked (entry :: rest)) onward now (taken value same)
        intro _ after holds
        split
        · apply graced_seq
          apply mild_then key since tracked _ (purge_entry_acts entry) (Spared key since tracked (entry :: rest)) onward after holds
          exact fun _ final holds => ih _ _ final (tail final holds)
        · exact ih _ _ after (tail after holds)

theorem pending_spared (state : ServerState) (graced : Graced key since tracked state) :
    Spared key since tracked (pendingGcEntries state.db) state := by
  intro tracks
  rcases graced.held tracks with released | ⟨_, unqueued⟩
  · exact .inl released
  · refine .inr fun entry member => ?_
    obtain ⟨⟨id, row⟩, listed, rfl⟩ := List.mem_map.mp member
    obtain ⟨stored, waits⟩ := List.mem_filter.mp ((List.perm_insertionSort _ _).mem_iff.mp listed)
    exact unqueued id row (Std.ExtTreeMap.mem_toList_iff_getElem?_eq_some.mp stored) (decide_eq_true_eq.mp waits)

theorem resume_graced (state : ServerState) :
    resumePendingGc.Wp (Graced key since tracked) (Onward key since) (GracedGuar key since tracked)
      (Prog.okay fun _ _ => True) state := by
  apply graced_seq
  apply wp_transaction _ _ _ (graced_idle key since tracked)
  intro seen db pending _ graced run
  cases run
  refine ⟨graced_idle key since tracked seen graced, fun last later _ => ?_⟩
  have spared := onward_spared key since tracked _ _ last later (pending_spared key since tracked seen graced)
  apply graced_seq
  refine Prog.wp_mono _ _ _ last (fun _ mid _ _ _ => ?_) (process_graced key since tracked _ _ _ last spared)
  have reads : (transaction fun _ db => .ok (db, quarantinedGcEntriesForPurge db)).Acts Mild :=
    acts_transaction _ mild_refl fun at_ db value run => by
      cases run
      exact mild_refl at_
  apply graced_seq
  apply mild_then key since tracked _ reads (fun _ => True) (fun _ _ _ => id) mid trivial
  intro entries now _
  exact mild_then key since tracked _ (purge_entries_acts entries) (fun _ => True) (fun _ _ _ => id) now trivial _ fun _ _ => id

-- What a transaction queues after this one is spared unless it may go.
theorem enqueued_spared (purge : Bool) (objects : List ObjectKey) (entries : List GcQueueEntry) (state : ServerState) (db : Database)
    (enqueued : Enqueued purge (millis state.clock) objects state.db db) (names : entries.map (·.object.key) = objects)
    (graced : Graced key since tracked state) (listed : key ∈ objects → Released key since { state with db := db }) :
    GracedGuar key since tracked state { state with db := db } ∧ Spared key since tracked entries { state with db := db } := by
  refine ⟨⟨enqueued_graced key since tracked purge objects state db enqueued graced listed,
    enqueued_onward key since purge _ objects state db enqueued⟩, fun _ => ?_⟩
  by_cases inside : key ∈ objects
  · exact .inl (listed inside)
  · refine .inr fun entry member same => inside ?_
    rw [← names, ← same]
    exact List.mem_map_of_mem member

variable (env : ServerEnv) (debug : Option String → String)

theorem quarantine_gc_graced (planFingerprint : String) (operationId : Uuid) (ids : Nat → Uuid) (state : ServerState) :
    GracedWp key since tracked (Server.quarantineServerGc env planFingerprint operationId ids) (fun _ _ => True) state := by
  apply graced_seq
  apply mild_then key since tracked _ (Prog.steps_of_except _ _) (fun _ => True) (fun _ _ _ => id) state trivial
  intro _ seen _
  apply graced_seq
  apply wp_transaction _ _ _ (graced_idle key since tracked)
  intro now db outcome _ graced run
  obtain ⟨plan, built, enqueued, names⟩ := enqueue_gc_enqueued _ _ _ _ _ _ _ _ outcome.2 run
  obtain ⟨keeps, spared⟩ := enqueued_spared key since tracked false _ outcome.2 now db enqueued names graced fun listed =>
    .inl (candidate_old key since env.lib now.clock now.db plan built graced.young listed)
  refine ⟨keeps, fun last later _ => ?_⟩
  apply graced_seq
  refine Prog.wp_mono _ _ _ last (fun _ mid _ _ _ => ?_)
    (process_graced key since tracked _ 0 0 last (onward_spared key since tracked _ _ last later spared))
  apply Prog.wp_pure
  exact fun _ _ _ => trivial

theorem purge_operations_rows (namespaceId : Uuid) (selected : List Uuid) (db : Database) :
    (selected.foldl (purgeOperation namespaceId) db).storageObjects = db.storageObjects ∧
      (selected.foldl (purgeOperation namespaceId) db).gcQueue = db.gcQueue := by
  induction selected generalizing db with
  | nil => exact ⟨rfl, rfl⟩
  | cons operation rest ih => exact ih (purgeOperation namespaceId db operation)

theorem commit_purge_enqueued (namespaceId : Uuid) (expected plan : HistoryTrashPurgePlan) (operationId : Uuid) (ids : Nat → Uuid)
    (now : Nanos) (db after : Database) (entries : List GcQueueEntry)
    (run : commitHistoryTrashPurge namespaceId expected operationId ids now db = .ok (after, plan, entries)) :
    ∃ objects, Enqueued true (millis now) objects db after ∧ entries.map (·.object.key) = objects := by
  obtain ⟨_, _, queues⟩ := commit_purge_ok namespaceId expected plan operationId ids now db after entries run
  simp only [enqueueGcObjectsForPurge, bind_ok] at queues
  obtain ⟨queued, _, queues⟩ := queues
  obtain ⟨enqueued, names⟩ := enqueue_objects_enqueued _ _ _ _ _ _ _ queues
  obtain ⟨rows, queue⟩ := purge_operations_rows namespaceId plan.operationIds db
  refine ⟨_, ⟨enqueued.rows.trans rows, fun id row stored => ?_, fun id row stored => ?_, enqueued.queued⟩, names⟩
  · exact enqueued.kept id row (by rw [queue, stored])
  · have before := enqueued.fresh id row stored
    rwa [queue] at before

theorem purge_graced (namespaceId : Uuid) (operationIds : List Uuid) (purgeAll : Bool) (operationId : Uuid) (ids : Nat → Uuid)
    (state : ServerState) :
    GracedWp key since tracked (Server.purgeHistoryTrash namespaceId operationIds purgeAll operationId ids)
      (fun _ _ => True) state := by
  apply graced_seq
  apply mild_then key since tracked _ (Prog.steps_of_except _ _) (fun _ => True) (fun _ _ _ => id) state trivial
  intro _ seen _
  apply graced_seq
  apply wp_transaction _ _ _ (graced_idle key since tracked)
  intro planned db plan _ plannedGraced read
  simp only [bind_ok, pure_ok] at read
  obtain ⟨_, _, done⟩ := read
  cases done
  refine ⟨graced_idle key since tracked planned plannedGraced, fun last _ _ => ?_⟩
  apply graced_seq
  apply wp_transaction _ _ _ (graced_idle key since tracked)
  intro now db outcome _ graced run
  obtain ⟨objects, enqueued, names⟩ :=
    commit_purge_enqueued namespaceId plan outcome.1 operationId ids now.clock now.db db outcome.2 run
  obtain ⟨keeps, spared⟩ := enqueued_spared key since tracked true _ outcome.2 now db enqueued names graced fun listed => by
    obtain ⟨id, row, stored, own, deletes, created⟩ := enqueued.queued key listed
    exact .inr ⟨id, row, stored, own, deletes, created ▸ graced.current⟩
  refine ⟨keeps, fun after later _ => ?_⟩
  apply graced_seq
  refine Prog.wp_mono _ _ _ after (fun _ mid _ _ _ => ?_)
    (process_graced key since tracked _ 0 0 after (onward_spared key since tracked _ _ after later spared))
  apply Prog.wp_pure
  exact fun _ _ _ => trivial

theorem request_graced (mode : Gate.Mode) (prog : Handler Reply) (asked : Request env debug mode prog) (state : ServerState) :
    GracedWp key since tracked prog (fun _ _ => True) state := by
  have mildly : ∀ prog : Handler Reply, prog.Acts Mild → GracedWp key since tracked prog (fun _ _ => True) state := fun prog acts =>
    mild_then key since tracked prog acts (fun _ => True) (fun _ _ _ => id) state trivial _ fun _ _ => id
  cases asked with
  | createNamespace displayName id => exact mildly _ (beside_acts env debug .free _ (.createNamespace displayName id) (by decide))
  | renameNamespace namespaceId displayName =>
      exact mildly _ (beside_acts env debug .free _ (.renameNamespace namespaceId displayName) (by decide))
  | putTypedObject key expectedLength stream =>
      exact mildly _ (beside_acts env debug .shared _ (.putTypedObject key expectedLength stream) (by decide))
  | commitRevisionRootV4 namespaceId payload =>
      exact mildly _ (beside_acts env debug .shared _ (.commitRevisionRootV4 namespaceId payload) (by decide))
  | truncateHistory namespaceId expectedHead expectedEpoch newHead operationId =>
      exact mildly _ (untouched_acts _ (Prog.acts_map _ _ (truncate_acts untouched_db _ _ _ _ _)))
  | restoreHistoryTrash namespaceId operationId expectedHead expectedEpoch =>
      exact mildly _ (untouched_acts _ (Prog.acts_map _ _ (restore_acts untouched_db _ _ _ _)))
  | purgeHistoryTrash namespaceId operationIds purgeAll operationId ids =>
      apply Prog.wp_map
      exact purge_graced key since tracked namespaceId operationIds purgeAll operationId ids state
  | quarantineServerGc planFingerprint operationId ids =>
      apply Prog.wp_map
      exact quarantine_gc_graced key since tracked env planFingerprint operationId ids state

theorem tick_onward (state after : ServerState) (moved : ClockTick state after) : Onward key since state after := by
  obtain ⟨later, order, rfl⟩ := moved
  exact ⟨order, id⟩

theorem tick_graced (state after : ServerState) (graced : Graced key since tracked state) (moved : ClockTick state after) :
    Graced key since tracked after := by
  have onward := tick_onward key since state after moved
  obtain ⟨later, order, rfl⟩ := moved
  refine ⟨le_trans graced.current (Int.ediv_le_ediv (by decide) order), graced.young, fun tracks => ?_⟩
  exact Or.imp_left (onward_released key since state _ onward) (graced.held tracks)

theorem grace_rules : Gate.Rules (server env debug) (Graced key since tracked) (fun _ => Onward key since)
    (fun _ => GracedGuar key since tracked) (fun _ _ => True) where
  refl _ := onward_refl key since
  trans _ := onward_trans key since
  guarInv _ _ _ _ keeps := keeps.1
  guarRely _ _ _ _ _ keeps := keeps.2
  driftInv := tick_graced key since tracked
  driftRely _ := tick_onward key since
  keptRely _ _ _ _ := id
  requests mode prog asked state _ := request_graced key since tracked env debug mode prog asked state
  boot state _ := by
    have resumed :=
      Prog.wp_map (fun _ => Reply.resumed) resumePendingGc (fun _ _ => True) state (resume_graced key since tracked state)
    exact Prog.wp_mono _ _ _ state (fun _ _ _ => trivial) resumed

end Grace

section Acknowledged

variable (env : ServerEnv) (debug : Option String → String) (now : Nanos) (key : ObjectKey) (expectedLength : UInt64)

-- Beside an upload that is about to be acknowledged there are mild programs only.
theorem acknowledged_beside (world recorded : ServerWorld)
    (reached : Gate.Reachable (server env debug) (ServerState.initialized now) world)
    (acknowledged : Acknowledged key expectedLength world recorded) :
    (∀ task ∈ recorded.running, task.2.Acts Mild) ∧ recorded.running.Pairwise fun one other => one.1.together other.1 := by
  have mildly := Gate.reachable_tasks (server env debug) (ServerState.initialized now)
    (fun mode prog => mode ≠ .exclusive → prog.Acts Mild) (fun mode prog asked => beside_acts env debug mode prog asked)
    (fun other => absurd rfl other) (fun mode _ step rest holds state beside => (holds beside state).2) world reached
  have sound := server_sound env debug now world reached
  have after := Gate.step_sound (server_rules env debug) world
    recorded (acknowledged_step env debug key expectedLength world recorded acknowledged) sound
  refine ⟨fun task member => ?_, after.beside⟩
  obtain ⟨state, db, before, later, created, replies, run⟩ := acknowledged
  obtain ⟨_, right, across⟩ := List.pairwise_append.mp sound.beside
  obtain ⟨follows, _⟩ := List.pairwise_cons.mp right
  have others : ∀ other : Gate.Mode, Gate.Mode.shared.together other → other ≠ .exclusive := fun other beside same => by
    rw [same] at beside
    exact beside
  rcases List.mem_append.mp member with earlier | behind
  · refine mildly task (List.mem_append_left _ earlier) (others _ (Gate.together_symm _ _ ?_))
    exact across task earlier _ List.mem_cons_self
  · rcases List.mem_cons.mp behind with rfl | inside
    · trivial
    · exact mildly task (List.mem_append_right _ (List.mem_cons_of_mem _ inside)) (others _ (follows task inside))

-- An object that had no row has its file when it gets one.
theorem acknowledged_present (world recorded : ServerWorld)
    (reached : Gate.Reachable (server env debug) (ServerState.initialized now) world)
    (acknowledged : Acknowledged key expectedLength world recorded) (absent : world.state.db.storageObjects[key]? = none) :
    key ∈ recorded.state.files := by
  have sound := Gate.reachable_sound (presence_rules env debug) (ServerState.initialized now) trivial world reached
  obtain ⟨state, db, before, later, created, replies, run⟩ := acknowledged
  obtain ⟨step, rest, shape, moves, ends⟩ := acknowledge_once key expectedLength created state db run
  rw [shape] at sound
  have keeps := (Gate.act_sound (presence_rules env debug) state before later .shared step rest true replies sound).1
  rw [moves] at keeps
  rcases record_ok _ _ _ _ run with ⟨known, _⟩ | ⟨length, rfl⟩
  · rw [Std.ExtTreeMap.contains_eq_isSome_getElem?] at known
    rw [show state.db.storageObjects[StorageObjectRef.key ⟨key.1, key.2, expectedLength⟩]? = none from absent] at known
    cases known
  · rcases keeps.2 key _ ((Keyed.lookup_insert _ _ _ _).trans (if_pos rfl)) with before | present
    · rw [absent] at before
      cases before
    · exact present

theorem acknowledged_graced (world recorded : ServerWorld)
    (reached : Gate.Reachable (server env debug) (ServerState.initialized now) world)
    (acknowledged : Acknowledged key expectedLength world recorded)
    (fresh : ∀ (row : StorageObjectRow), world.state.db.storageObjects[key]? = some row → millis world.state.clock ≤ row.createdAt) :
    Graced key (millis world.state.clock) (world.state.db.storageObjects[key]? = none ∧
      Unqueued key world.state.db) recorded.state := by
  have present := acknowledged_present env debug now key expectedLength world recorded reached acknowledged
  obtain ⟨state, db, before, later, created, replies, run⟩ := acknowledged
  have moved := record_mild _ state db run
  refine ⟨le_refl _, fun row stored => ?_, fun tracks => .inr ⟨present tracks.1, fun id row stored waits => ?_⟩⟩
  · rcases moved.rows key row stored with old | new
    · exact fresh row old
    · exact le_of_eq new.symm
  · exact tracks.2 id row (moved.pending id row stored waits) waits

-- An object whose PUT gave it a row is in no plan and enters no queue for an hour, and if
-- no entry for it was waiting it keeps its file, unless a history purge selects it.
theorem upload_grace (world recorded later : ServerWorld)
    (reached : Gate.Reachable (server env debug) (ServerState.initialized now) world)
    (acknowledged : Acknowledged key expectedLength world recorded)
    (fresh : ∀ (row : StorageObjectRow), world.state.db.storageObjects[key]? = some row → millis world.state.clock ≤ row.createdAt)
    (run : Relation.ReflTransGen (Gate.Step (server env debug)) recorded later)
    (soon : millis later.state.clock < millis world.state.clock + uploadGrace) :
    (∀ plan, buildGcPlan env.lib later.state.clock later.state.db = .ok plan → key ∉ plan.candidates.map StorageObjectRef.key) ∧
      (∀ fingerprint operationId ids db result entries,
        enqueueGc env.lib fingerprint operationId ids later.state.clock later.state.db = .ok (db, result, entries) →
          key ∉ entries.map (·.object.key)) ∧
      (world.state.db.storageObjects[key]? = none → Unqueued key world.state.db →
        key ∈ later.state.files ∨ PurgeQueued key (millis world.state.clock) later.state) := by
  obtain ⟨mildly, beside⟩ := acknowledged_beside env debug now key expectedLength world recorded reached acknowledged
  have begins := acknowledged_graced env debug now key expectedLength world recorded reached acknowledged fresh
  have rules :=
    grace_rules key (millis world.state.clock) (world.state.db.storageObjects[key]? = none ∧ Unqueued key world.state.db) env debug
  have sound := Gate.steps_sound rules recorded later run ⟨begins, fun task member => ?_, beside, fun _ _ => trivial⟩
  · have graced := sound.holds
    have unlisted : ∀ plan, buildGcPlan env.lib later.state.clock later.state.db = .ok plan →
        key ∉ plan.candidates.map StorageObjectRef.key := fun plan built listed =>
      absurd (candidate_old key _ env.lib _ _ plan built graced.young listed) (not_le.mpr soon)
    refine ⟨unlisted, fun fingerprint operationId ids db result entries queued listed => ?_, fun absent unqueued => ?_⟩
    · obtain ⟨plan, built, _, names⟩ := enqueue_gc_enqueued _ _ _ _ _ _ _ _ entries queued
      exact unlisted plan built (names ▸ listed)
    · rcases graced.held ⟨absent, unqueued⟩ with (late | queued) | held
      · exact absurd late (not_le.mpr soon)
      · exact .inr queued
      · exact .inl held.1
  · refine Prog.wp_mono _ _ _ _ (fun _ _ _ _ _ _ => trivial)
      (mild_wp key _ _ task.2 (mildly task member) (fun _ => True) (fun _ _ _ => id) recorded.state trivial)

end Acknowledged

namespace GraceSample

def env : ServerEnv := Sample.env false
def key : ObjectKey := (.whole, digestBytes Sample.primitives [])

def Served (world : ServerWorld) : Prop := Gate.Reachable (server env Sample.debug) (ServerState.initialized 0) world

theorem received : writeVerifiedTemp env (env.limit key.1) 0 key.2 [] [] = .ok [] := by
  simp only [writeVerifiedTemp, bind_ok, ensure_ok, pure_ok]
  exact ⟨(), rfl, (), rfl, trivial⟩

-- The three actions of a PUT of the empty object.
theorem put_acts_thrice : ∃ rest : Bool → Handler Reply,
    Reply.stored <$> putTypedObject env key 0 [] = .act (fun state => (state.files.contains key, state)) rest ∧
      (∃ more : Except ObjectStoreError Unit → Handler Reply,
        rest true = .act (fun state => (verifyFile env key 0 state.files, state)) more ∧
          more (.ok ()) = Reply.stored <$> acknowledgePut key 0 false) ∧
      ∃ more : Bool → Handler Reply,
        rest false = .act (renameInto key []) more ∧ more true = Reply.stored <$> acknowledgePut key 0 true := by
  have named : validSha256 key.2 = true := digest_bytes_valid Sample.primitives []
  have fits : (0 : UInt64) ≤ env.limit key.1 := by decide
  have short : (0 : UInt64) ≤ key.1.maxBytes := by decide
  rw [put_ends, putStream, received, objectPath, ensure, if_pos named, ensure, if_pos short, ensure, if_pos named,
    ensure, if_pos fits]
  exact ⟨_, rfl, ⟨_, rfl, rfl⟩, ⟨_, rfl, rfl⟩⟩

def started : ServerState := ServerState.initialized 0
def installed : ServerState := { started with files := started.files.insert key [] }
def row : StorageObjectRow := { byteLength := 0, createdAt := 0 }
def recordedDb : Database := { started.db with storageObjects := started.db.storageObjects.insert key row }
def minutes (count : Int) : Nanos := count * 60 * 1000000000
def at_ (clock : Nanos) : ServerState := { installed with db := recordedDb, clock := clock }
def waiting (state : ServerState) (created : Bool) (replies : List Reply) : ServerWorld :=
  ⟨state, [(.shared, Reply.stored <$> acknowledgePut key 0 created)], true, replies⟩
def answered (state : ServerState) (created : Bool) (replies : List Reply) : ServerWorld :=
  ⟨state, [(.shared, .ret (.stored created))], true, replies⟩

theorem absent : started.db.storageObjects[key]? = none := Std.ExtTreeMap.getElem?_empty

theorem stored : recordedDb.storageObjects[key]? = some row := (Keyed.lookup_insert _ _ _ _).trans (if_pos rfl)

theorem only (other : ObjectKey) (found : StorageObjectRow) (known : recordedDb.storageObjects[other]? = some found) :
    found = row := by
  replace known := (Keyed.lookup_insert _ _ _ _).symm.trans known
  by_cases same : other = key
  · rw [if_pos same] at known
    exact (Option.some.inj known).symm
  · rw [if_neg same, show started.db.storageObjects[other]? = none from Std.ExtTreeMap.getElem?_empty] at known
    cases known

theorem unqueued : Unqueued key started.db := by
  intro id row known
  rw [show started.db.gcQueue[id]? = none from Std.ExtTreeMap.getElem?_empty] at known
  cases known

theorem small : sqlInteger 0 key.2 = .ok 0 := if_pos (by decide)

theorem first_record : recordStorageObject { kind := key.1, sha256 := key.2, byteLength := 0 } 0 started.db = .ok recordedDb := by
  have free : ¬ started.db.storageObjects.contains key = true := by
    rw [Std.ExtTreeMap.contains_eq_isSome_getElem?, absent, Option.isSome_none]
    exact Bool.false_ne_true
  simp only [recordStorageObject, bind_ok]
  exact ⟨0, small, if_neg free⟩

theorem second_record (clock : Nanos) :
    recordStorageObject { kind := key.1, sha256 := key.2, byteLength := 0 } clock recordedDb = .ok recordedDb := by
  have known : recordedDb.storageObjects.contains key = true := by
    rw [Std.ExtTreeMap.contains_eq_isSome_getElem?, stored, Option.isSome_some]
  simp only [recordStorageObject, bind_ok]
  exact ⟨0, small, if_pos known⟩

theorem first_waits : Served (waiting installed true []) := by
  obtain ⟨rest, shape, _, more, renames, ends⟩ := put_acts_thrice
  have arrives := Gate.request_arrives _ _ .shared _ (Request.putTypedObject key 0 []) started [] Sample.served_boot
  have missing : (started.files.contains key, started) = (false, started) := congrArg (·, started) Std.ExtTreeMap.contains_empty
  have looks := Gate.act_reachable _ _ .shared true [] _ started started _ rest false shape missing arrives
  have free : renameInto key [] started = (true, installed) := by
    rw [renameInto, show started.files.contains key = false from Std.ExtTreeMap.contains_empty]
    rfl
  have renamed := Gate.act_reachable _ _ .shared true [] _ started installed _ more true renames free looks
  rw [ends] at renamed
  exact renamed

theorem first_acknowledged : Acknowledged key 0 (waiting installed true []) (answered (at_ 0) true []) :=
  .mk installed recordedDb [] [] true [] first_record

theorem tick (one other : Nanos) (order : one ≤ other) (tasks : List (Gate.Mode × Handler Reply)) (replies : List Reply) :
    Gate.Step (server env Sample.debug) ⟨at_ one, tasks, true, replies⟩ ⟨at_ other, tasks, true, replies⟩ :=
  .drift ⟨at_ one, tasks, true, replies⟩ (at_ other) ⟨other, order, rfl⟩

theorem second_waits : Served (waiting (at_ (minutes 59)) false [.stored true]) := by
  obtain ⟨rest, shape, ⟨more, verifies, ends⟩, _⟩ := put_acts_thrice
  have recorded := first_waits.tail (acknowledged_step env Sample.debug key 0 _ _ first_acknowledged)
  have replied : Served ⟨at_ 0, [], true, [.stored true]⟩ := recorded.tail (.reply (at_ 0) [] [] .shared (Reply.stored true) [])
  have later := replied.tail (tick 0 (minutes 59) (by decide) [] [.stored true])
  have arrives := Gate.request_arrives _ _ .shared _ (Request.putTypedObject key 0 []) _ _ later
  have held : (at_ (minutes 59)).files[key]? = some [] := (Keyed.lookup_insert _ _ _ _).trans (if_pos rfl)
  have present : ((at_ (minutes 59)).files.contains key, at_ (minutes 59)) = (true, at_ (minutes 59)) := by
    rw [Std.ExtTreeMap.contains_eq_isSome_getElem?, held, Option.isSome_some]
  have looks := Gate.act_reachable _ _ .shared true _ _ _ _ _ rest true shape present arrives
  have verified : verifyFile env key 0 (at_ (minutes 59)).files = .ok () := by
    simp only [verifyFile, bind_ok, found_ok, ensure_ok]
    exact ⟨[], held, (), by decide, (), rfl, rfl⟩
  have read := Gate.act_reachable _ _ .shared true _ _ _ _ _ more (.ok ()) verifies (congrArg (·, at_ (minutes 59)) verified) looks
  rw [ends] at read
  exact read

theorem second_acknowledged :
    Acknowledged key 0 (waiting (at_ (minutes 59)) false [.stored true]) (answered (at_ (minutes 59)) false [.stored true]) :=
  .mk (at_ (minutes 59)) recordedDb [] [] false [.stored true] (second_record _)

theorem sum_zero (lengths : List UInt64) (each : ∀ length ∈ lengths, length = 0) : checkedSum lengths 0 = some 0 := by
  induction lengths with
  | nil => rfl
  | cons length rest ih =>
      rw [each length List.mem_cons_self, checkedSum, if_pos (by decide)]
      exact ih fun other member => each other (List.mem_cons_of_mem _ member)

theorem unreached : (reachableObjects recordedDb (minutes 60)).contains key = false := by
  apply Bool.eq_false_iff.mpr
  intro reached
  obtain ⟨start, listed, _⟩ := (Closure.mem_closure _ _ _).mp (Std.ExtTreeSet.contains_iff_mem.mp reached)
  have empty : recordedDb.revisionRoots.toList = [] := Std.ExtTreeMap.toList_eq_nil_iff.mpr rfl
  rw [protectedRoots, empty] at listed
  cases listed

theorem listed_after : ∃ plan, buildGcPlan env.lib (minutes 60) recordedDb = .ok plan ∧
    key ∈ plan.candidates.map StorageObjectRef.key := by
  simp only [buildGcPlan, bind_ok, found_ok, pure_ok]
  refine ⟨_, ⟨0, sum_zero _ fun length member => ?_, rfl⟩, ?_⟩
  · simp only [List.map_map, List.mem_map, List.mem_filter] at member
    obtain ⟨entry, ⟨inside, _⟩, rfl⟩ := member
    have same := only entry.1 entry.2 (Std.ExtTreeMap.mem_toList_iff_getElem?_eq_some.mp inside)
    show entry.2.byteLength = 0
    rw [same]
    rfl
  · rw [List.map_map, List.mem_map]
    refine ⟨(key, row), List.mem_filter.mpr ⟨Std.ExtTreeMap.mem_toList_iff_getElem?_eq_some.mpr stored, ?_⟩, rfl⟩
    rw [unreached]
    decide

end GraceSample

open GraceSample in
theorem upload_grace_sample :
    (∀ plan, buildGcPlan env.lib (minutes 59) recordedDb = .ok plan → key ∉ plan.candidates.map StorageObjectRef.key) ∧
      (key ∈ (at_ (minutes 59)).files ∨ PurgeQueued key 0 (at_ (minutes 59))) := by
  have grace := upload_grace env Sample.debug 0 key 0 _ _ (answered (at_ (minutes 59)) true []) first_waits first_acknowledged
    (fun found known => by
      rw [show (waiting installed true []).state.db.storageObjects[key]? = none from absent] at known
      cases known)
    (.single (tick 0 (minutes 59) (by decide) _ _)) (by decide)
  exact ⟨grace.1, grace.2.2 absent unqueued⟩

open GraceSample in
theorem repeated_put_listed :
    ¬ ∀ (env : ServerEnv) (debug : Option String → String) (now : Nanos) (world recorded later : ServerWorld) (key : ObjectKey)
      (expectedLength : UInt64), Gate.Reachable (server env debug) (ServerState.initialized now) world →
        Acknowledged key expectedLength world recorded → Relation.ReflTransGen (Gate.Step (server env debug)) recorded later →
          millis later.state.clock < millis world.state.clock + uploadGrace →
            ∀ plan, buildGcPlan env.lib later.state.clock later.state.db = .ok plan →
              key ∉ plan.candidates.map StorageObjectRef.key := by
  intro claim
  obtain ⟨plan, built, listed⟩ := listed_after
  exact claim env Sample.debug 0 _ _ (answered (at_ (minutes 60)) false [.stored true]) key 0 second_waits second_acknowledged
    (.single (tick (minutes 59) (minutes 60) (by decide) _ _)) (by decide) plan built listed

end SessionSync.Server
