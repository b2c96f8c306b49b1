import SessionSync.Server.UploadGrace

set_option autoImplicit false

namespace SessionSync.Server

open SessionSync.Core Checked Storage

-- A file that stays keeps the row it has, and a row comes with the time of its transaction.
structure RowsHeld (state after : ServerState) : Prop where
  clock : after.clock = state.clock
  held : ∀ (key : ObjectKey) (row : StorageObjectRow), key ∈ after.files → state.db.storageObjects[key]? = some row →
    after.db.storageObjects[key]? = some row
  fresh : ∀ (key : ObjectKey) (row : StorageObjectRow), after.db.storageObjects[key]? = some row →
    state.db.storageObjects[key]? = some row ∨ row.createdAt = millis state.clock

def SameFiles (state after : ServerState) : Prop := after.files = state.files

def FewerFiles (state after : ServerState) : Prop := ∀ key ∈ after.files, key ∈ state.files

def rowsRely : Gate.Mode → ServerState → ServerState → Prop
  | .free, _, _ | .shared, _, _ => True
  | .exclusive, state, after => FewerFiles state after

def rowsGuar : Gate.Mode → ServerState → ServerState → Prop
  | .free, state, after => SameFiles state after ∧ RowsHeld state after
  | .shared, state, after => RowsHeld state after
  | .exclusive, state, after => FewerFiles state after ∧ RowsHeld state after

theorem same_rows_held (state after : ServerState) (clock : after.clock = state.clock)
    (rows : after.db.storageObjects = state.db.storageObjects) : RowsHeld state after := by
  refine ⟨clock, fun key row _ stored => ?_, fun key row stored => .inl ?_⟩
  · rw [rows]
    exact stored
  · rw [← rows]
    exact stored

theorem rows_held_refl (state : ServerState) : RowsHeld state state := same_rows_held state state rfl rfl

theorem record_held (object : StorageObjectRef) (state : ServerState) (db : Database)
    (run : recordStorageObject object state.clock state.db = .ok db) : RowsHeld state { state with db := db } := by
  rcases record_ok object state.clock state.db db run with ⟨_, rfl⟩ | ⟨length, rfl⟩
  · exact rows_held_refl state
  · refine ⟨rfl, fun key row _ stored => ?_, fun key row stored => ?_⟩
    · by_cases same : key = object.key
      · simp only [recordStorageObject, bind_ok] at run
        obtain ⟨_, _, run⟩ := run
        have known : state.db.storageObjects.contains object.key = true := by
          rw [Std.ExtTreeMap.contains_eq_isSome_getElem?, ← same, stored, Option.isSome_some]
        rw [if_pos known] at run
        rw [← Except.ok.inj run]
        exact stored
      · exact (Keyed.lookup_insert _ _ _ _).trans ((if_neg same).trans stored)
    · replace stored := (Keyed.lookup_insert _ _ _ _).symm.trans stored
      by_cases same : key = object.key
      · rw [if_pos same] at stored
        cases stored
        exact .inr rfl
      · rw [if_neg same] at stored
        exact .inl stored

theorem rename_held (key : ObjectKey) (bytes : Bytes) (state : ServerState) : RowsHeld state (renameInto key bytes state).2 := by
  unfold renameInto
  split <;> exact same_rows_held _ _ rfl rfl

theorem untouched_rows (mode : Gate.Mode) (state after : ServerState) (moved : Untouched state after) :
    rowsGuar mode state after := by
  have held := same_rows_held state after moved.clock moved.rows
  cases mode with
  | free => exact ⟨moved.files, held⟩
  | shared => exact held
  | exclusive => exact ⟨fun key present => moved.files ▸ present, held⟩

abbrev RowsWp {ε α : Type} (prog : Prog ServerState ε α) (post : α → ServerState → Prop) (state : ServerState) : Prop :=
  prog.Wp (fun _ => True) FewerFiles (rowsGuar .exclusive) (Prog.okay post) state

theorem same_files_refl (state : ServerState) : SameFiles state state := rfl

theorem fewer_files_refl (state : ServerState) : FewerFiles state state := fun _ present => present

theorem fewer_files_trans (a b c : ServerState) (first : FewerFiles a b) (second : FewerFiles b c) : FewerFiles a c :=
  fun key present => first key (second key present)

theorem rows_idle (state : ServerState) : rowsGuar .exclusive state state := ⟨fewer_files_refl state, rows_held_refl state⟩

theorem rows_seq {ε α β : Type} (prog : Prog ServerState ε α) (next : α → Prog ServerState ε β) (post : β → ServerState → Prop)
    (state : ServerState) (first : RowsWp prog (fun value seen => RowsWp (next value) post seen) state) :
    RowsWp (prog >>= next) post state := Prog.wp_seq fewer_files_refl prog next post state first

-- An action that leaves the files and the rows alone.
def StillRows (state after : ServerState) : Prop :=
  after.clock = state.clock ∧ after.files = state.files ∧ after.db.storageObjects = state.db.storageObjects

theorem still_wp {ε α : Type} (prog : Prog ServerState ε α) (acts : prog.Acts StillRows) (key : ObjectKey)
    (post : α → ServerState → Prop) (state : ServerState) (gone : key ∉ state.files)
    (later : ∀ value seen, key ∉ seen.files → post value seen) :
    RowsWp prog post state := by
  refine Prog.wp_mono prog _ _ state (fun _ seen holds value _ => later value seen holds)
    (Prog.wp_of_acts _ _ _ (fun seen => key ∉ seen.files) prog acts (fun before after _ moved => ?_)
      (fun before after same holds => ?_)
      (fun before after moved holds => ?_) state gone)
  · exact ⟨fun other present => moved.2.1 ▸ present, same_rows_held before after moved.1 moved.2.2⟩
  · exact fun present => holds (same key present)
  · exact moved.2.1 ▸ holds

theorem still_any {ε α : Type} (prog : Prog ServerState ε α) (acts : prog.Acts StillRows) (post : α → ServerState → Prop)
    (state : ServerState) (later : ∀ value seen, post value seen) : RowsWp prog post state := by
  refine Prog.wp_mono prog _ _ state (fun _ seen _ value _ => later value seen)
    (Prog.wp_of_acts _ _ _ (fun _ => True) prog acts (fun before after _ moved => ?_) (fun _ _ _ => id)
      (fun _ _ _ => id) state trivial)
  exact ⟨fun other present => moved.2.1 ▸ present, same_rows_held before after moved.1 moved.2.2⟩

theorem still_refl (state : ServerState) : StillRows state state := ⟨rfl, rfl, rfl⟩

theorem queue_still (change : Nanos → Database → Database) (quiet : ∀ now db, ∃ queue, change now db = { db with gcQueue := queue }) :
    (transaction fun now db => .ok (change now db, ())).Acts StillRows := by
  refine acts_transaction _ still_refl fun state db value run => ?_
  cases run
  obtain ⟨queue, same⟩ := quiet state.clock state.db
  rw [same]
  exact ⟨rfl, rfl, rfl⟩

theorem purge_still (entry : GcQueueEntry) : (purgeGcEntry entry).Acts StillRows := by
  apply Prog.acts_bind _ _ (Prog.steps_of_except _ _)
  intro _
  refine Prog.acts_bind _ _ (Prog.acts_map_error _ _ ?_) fun _ =>
    queue_still (fun _ => Server.markGcEntryPurged entry.id) fun _ _ => ⟨_, rfl⟩
  apply Prog.acts_bind _ _ (Prog.acts_query _ still_refl)
  intro metadata
  cases metadata with
  | none => trivial
  | some bytes =>
      apply Prog.acts_bind _ _ (Prog.steps_of_except _ _)
      intro _
      exact Prog.acts_bind _ _ (Prog.acts_update _ fun _ => ⟨rfl, rfl, rfl⟩) fun _ => trivial

theorem purges_still (entries : List GcQueueEntry) : (purgeGcEntries entries).Acts StillRows := by
  induction entries with
  | nil => trivial
  | cons entry rest ih => exact Prog.acts_bind _ _ (purge_still entry) fun _ => ih

-- A quarantine that goes through leaves no file.
theorem quarantine_takes (operationId : Uuid) (key : ObjectKey) (state : ServerState) :
    RowsWp (quarantine operationId key) (fun _ seen => key ∉ seen.files) state := by
  apply rows_seq
  apply Prog.wp_check
  intro _ _ one _ _
  apply rows_seq
  apply Prog.wp_act
  intro seen _ _
  refine ⟨rows_idle seen, fun last same _ => ?_⟩
  split
  · apply Prog.wp_act
    intro now _ _
    unfold quarantineFile
    cases stored : now.files[key]? with
    | none =>
        refine ⟨rows_idle now, fun after still _ present => ?_⟩
        have kept := still key present
        rw [Std.ExtTreeMap.mem_iff_isSome_getElem?, stored] at kept
        cases kept
    | some bytes =>
        refine ⟨⟨fun other present => (Std.ExtTreeMap.mem_erase.mp present).2, same_rows_held _ _ rfl rfl⟩,
          fun after still _ present => ?_⟩
        exact (Std.ExtTreeMap.mem_erase.mp (still key present)).1 (Std.LawfulEqOrd.compare_eq_iff_eq.mpr rfl)
  · next absent =>
      have gone : key ∉ last.files := fun present => absent (Std.ExtTreeMap.contains_iff_mem.mpr (same key present))
      exact still_wp _ (Prog.acts_query _ still_refl) key _ last gone fun _ _ holds => holds

theorem complete_held (entry : GcQueueEntry) (state : ServerState) (gone : entry.object.key ∉ state.files) :
    rowsGuar .exclusive state { state with db := Server.completeGcEntry entry state.clock state.db } := by
  refine ⟨fun _ present => present, rfl, fun key row present stored => ?_, fun key row stored => .inl ?_⟩
  · refine (Keyed.lookup_erase _ _ _).trans ((if_neg fun same => ?_).trans stored)
    exact gone (same ▸ present)
  · replace stored := (Keyed.lookup_erase _ _ _).symm.trans stored
    by_cases same : key = entry.object.key
    · rw [if_pos same] at stored
      cases stored
    · rw [if_neg same] at stored
      exact stored

-- The row of an entry goes when its file is gone.
theorem process_rows (entries : List GcQueueEntry) (count : Nat) (bytes : UInt64) (post : Nat × UInt64 → ServerState → Prop)
    (state : ServerState) (later : ∀ value seen, post value seen) : RowsWp (processGcEntries entries count bytes) post state := by
  induction entries generalizing count bytes state with
  | nil =>
      apply Prog.wp_pure
      exact fun seen _ _ => later _ seen
  | cons entry rest ih =>
      apply rows_seq
      apply still_any _ (acts_transaction _ still_refl fun at_ db value run => by cases run; exact still_refl at_)
      intro reachable seen
      split
      · apply rows_seq
        apply still_any _ (queue_still (fun _ => Server.cancelGcEntry entry.id) fun _ _ => ⟨_, rfl⟩)
        exact fun _ mid => ih count bytes mid
      · apply rows_seq
        apply still_any _ (Prog.steps_of_except _ _)
        intro _ mid
        apply rows_seq
        apply Prog.wp_rename_error
        refine Prog.wp_mono _ _ _ mid (fun outcome now taken value same => ?_)
          (quarantine_takes entry.operationId entry.object.key mid)
        apply rows_seq
        apply wp_transaction _ _ _ fun at_ _ => rows_idle at_
        intro at_ db _ still _ completed
        cases completed
        have gone : entry.object.key ∉ at_.files := fun present => taken value same (still _ present)
        refine ⟨complete_held entry at_ gone, fun after _ _ => ?_⟩
        split
        · apply rows_seq
          apply still_any _ (purge_still entry)
          exact fun _ final => ih _ _ final
        · exact ih _ _ after

theorem resume_rows (state : ServerState) : RowsWp resumePendingGc (fun _ _ => True) state := by
  apply rows_seq
  apply still_any _ (acts_transaction _ still_refl fun at_ db value run => by cases run; exact still_refl at_)
  intro pending seen
  apply rows_seq
  apply process_rows
  intro _ mid
  apply rows_seq
  apply still_any _ (acts_transaction _ still_refl fun at_ db value run => by cases run; exact still_refl at_)
  intro quarantined now
  exact still_any _ (purges_still quarantined) _ now fun _ _ => trivial

variable (env : ServerEnv) (debug : Option String → String)

theorem collect_rows (planFingerprint : String) (operationId : Uuid) (ids : Nat → Uuid) (state : ServerState) :
    RowsWp (Server.quarantineServerGc env planFingerprint operationId ids) (fun _ _ => True) state := by
  apply rows_seq
  apply still_any _ (Prog.steps_of_except _ _)
  intro _ seen
  apply rows_seq
  apply still_any _ (acts_transaction _ still_refl fun at_ db value run => by
    rw [enqueue_gc_quiet _ _ _ _ _ _ _ _ _ run]
    exact ⟨rfl, rfl, rfl⟩)
  intro queued mid
  apply rows_seq
  apply process_rows
  intro _ last
  apply Prog.wp_pure
  exact fun _ _ _ => trivial

theorem purge_history_rows (namespaceId : Uuid) (operationIds : List Uuid) (purgeAll : Bool) (operationId : Uuid)
    (ids : Nat → Uuid) (state : ServerState) :
    RowsWp (Server.purgeHistoryTrash namespaceId operationIds purgeAll operationId ids) (fun _ _ => True) state := by
  apply rows_seq
  apply still_any _ (Prog.steps_of_except _ _)
  intro _ seen
  apply rows_seq
  apply still_any _ (acts_transaction _ still_refl fun at_ db value run => by
    simp only [bind_ok, pure_ok, Prod.mk.injEq] at run
    obtain ⟨_, _, rfl, _⟩ := run
    exact still_refl at_)
  intro plan mid
  apply rows_seq
  apply still_any _ (acts_transaction _ still_refl fun at_ db value run => by
    obtain ⟨objects, enqueued, _⟩ := commit_purge_enqueued namespaceId plan value.1 operationId ids _ _ db value.2 run
    exact ⟨rfl, rfl, enqueued.rows⟩)
  intro committed last
  apply rows_seq
  apply process_rows
  intro _ final
  apply Prog.wp_pure
  exact fun _ _ _ => trivial

theorem acts_rows_wp (mode : Gate.Mode) (prog : Handler Reply) (acts : prog.Acts fun state after => rowsGuar mode state after)
    (state : ServerState) :
    prog.Wp (fun _ => True) (rowsRely mode) (rowsGuar mode) (Prog.okay fun _ _ => True) state := by
  exact Prog.wp_mono _ _ _ state (fun _ _ _ _ _ => trivial)
    (Prog.wp_of_acts _ _ _ (fun _ => True) prog acts (fun _ _ _ moved => moved) (fun _ _ _ => id) (fun _ _ _ => id) state trivial)

theorem untouched_rows_wp (mode : Gate.Mode) (prog : Handler Reply) (acts : prog.Acts Untouched) (state : ServerState) :
    prog.Wp (fun _ => True) (rowsRely mode) (rowsGuar mode) (Prog.okay fun _ _ => True) state :=
  acts_rows_wp mode prog (Prog.steps_mono _ _ (fun before after _ => untouched_rows mode before after) prog acts) state

theorem put_rows (key : ObjectKey) (expectedLength : UInt64) (stream : List Bytes) :
    (Server.putTypedObject env key expectedLength stream).Acts RowsHeld :=
  put_keeps env rows_held_refl key expectedLength stream (fun bytes state _ => rename_held key bytes state) fun _ state db _ run =>
    record_held _ state db run

theorem alone_rows_wp {α : Type} (reply : α → Reply) (prog : Handler α) (state : ServerState)
    (rows : RowsWp prog (fun _ _ => True) state) :
    (reply <$> prog).Wp (fun _ => True) (rowsRely .exclusive) (rowsGuar .exclusive) (Prog.okay fun _ _ => True) state := by
  apply Prog.wp_map
  exact rows

theorem rows_rules : Gate.Rules (server env debug) (fun _ => True) rowsRely rowsGuar (fun _ _ => True) where
  refl mode state := by
    cases mode with
    | exclusive => exact fewer_files_refl state
    | free | shared => trivial
  trans mode a b c first second := by
    cases mode with
    | exclusive => exact fewer_files_trans a b c first second
    | free | shared => trivial
  guarInv _ _ _ _ _ := trivial
  guarRely mode other a b beside keeps := by
    cases other with
    | free | shared => trivial
    | exclusive =>
        cases mode with
        | free => exact fun key present => keeps.1 ▸ present
        | shared | exclusive => exact beside.elim
  driftInv _ _ _ _ := trivial
  driftRely mode a b moved := by
    cases mode with
    | free | shared => trivial
    | exclusive =>
        obtain ⟨later, _, rfl⟩ := moved
        exact fewer_files_refl a
  keptRely _ _ _ _ _ := trivial
  requests mode prog asked state _ := by
    cases asked with
    | createNamespace displayName id =>
        exact untouched_rows_wp .free _ (Prog.acts_map _ _ (create_namespace_acts untouched_db displayName id)) state
    | renameNamespace namespaceId displayName =>
        exact untouched_rows_wp .free _ (Prog.acts_map _ _ (rename_namespace_acts untouched_db namespaceId displayName)) state
    | commitRevisionRootV4 namespaceId payload =>
        exact untouched_rows_wp .shared _ (Prog.acts_map _ _ (commit_acts env debug untouched_db namespaceId payload)) state
    | putTypedObject key expectedLength stream =>
        exact acts_rows_wp .shared _ (Prog.acts_map _ _ (put_rows env key expectedLength stream)) state
    | truncateHistory => exact untouched_rows_wp .exclusive _ (Prog.acts_map _ _ (truncate_acts untouched_db _ _ _ _ _)) state
    | restoreHistoryTrash => exact untouched_rows_wp .exclusive _ (Prog.acts_map _ _ (restore_acts untouched_db _ _ _ _)) state
    | purgeHistoryTrash => exact alone_rows_wp Reply.purged _ state (purge_history_rows _ _ _ _ _ state)
    | quarantineServerGc => exact alone_rows_wp Reply.collected _ state (collect_rows env _ _ _ state)
  boot state _ := Prog.wp_mono _ _ _ state (fun _ _ _ => trivial) (alone_rows_wp (fun _ => Reply.resumed) _ state (resume_rows state))

end SessionSync.Server
