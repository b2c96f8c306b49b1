import SessionSync.Lib.Threads
import SessionSync.Server.RowKept

set_option autoImplicit false

namespace SessionSync.Server

open SessionSync.Core Checked Storage

section Leaks

variable (env : ServerEnv) (debug : Option String → String)

-- A PUT of the object that is running.
def PutInFlight (key : ObjectKey) (task : Gate.Mode × Handler Reply) : Prop :=
  task.1 = .shared ∧ ∃ expectedLength stream taken,
    Schedule.After (Reply.stored <$> putTypedObject env key expectedLength stream) taken task.2

-- It has installed its file, or found it, and its next action records the object.
def AboutToRecord (key : ObjectKey) (task : Gate.Mode × Handler Reply) : Prop :=
  ∃ expectedLength created, task = (.shared, Reply.stored <$> acknowledgePut key expectedLength created)

-- The length has passed the check by then.
def Recording (key : ObjectKey) (task : Gate.Mode × Handler Reply) : Prop :=
  ∃ expectedLength created, expectedLength ≤ key.1.maxBytes ∧
    task = (.shared, Reply.stored <$> acknowledgePut key expectedLength created)

abbrev ServerThreads := Gate.Threaded ServerState HttpError Reply

-- Whatever state it meets, the action brings no file and takes the row of none. A rename
-- into the store and complete_gc_entry are not of this kind.
def Harmless (action : ServerState → ServerState) : Prop := ∀ state, FewerFiles state (action state) ∧ RowsHeld state (action state)

-- A step that stops no PUT between the file and the first row of its object, and leaves
-- nothing under way that can bring a file or take the row of one.
structure Careful (threads after : ServerThreads) : Prop where
  step : Gate.ThreadedStep (server env debug) threads after
  spared : ∀ task key, Gate.ThreadedStopped (server env debug) threads after task → AboutToRecord key task →
    key ∈ threads.world.state.db.storageObjects
  harmless : ∀ action ∈ after.underWay, action ∈ threads.underWay ∨ Harmless action

def booting (now : Nanos) : ServerThreads := ⟨⟨ServerState.initialized now, [(.exclusive, (server env debug).boot)], false, []⟩, []⟩

def Tracked (world : ServerWorld) : Prop :=
  ∀ key ∈ world.state.files, key ∈ world.state.db.storageObjects ∨ ∃ task ∈ world.running, PutInFlight env key task

-- What is due for a collection is in every plan that is made.
def Collectable (key : ObjectKey) (state : ServerState) : Prop :=
  ∀ plan, buildGcPlan env.lib state.clock state.db = .ok plan → key ∈ plan.candidates.map StorageObjectRef.key

def Gained (key : ObjectKey) (state after : ServerState) : Prop := ∀ other ∈ after.files, other ∉ state.files → other = key

theorem rename_gains (key : ObjectKey) (bytes : Bytes) (state : ServerState) : Gained key state (renameInto key bytes state).2 := by
  intro other present absent
  unfold renameInto at present
  by_cases there : state.files.contains key = true
  · rw [if_pos there] at present
    exact absurd present absent
  · rw [if_neg there] at present
    rcases Std.ExtTreeMap.mem_insert.mp present with same | before
    · exact (Std.LawfulEqOrd.compare_eq_iff_eq.mp same).symm
    · exact absurd before absent

-- A file comes by the last action of the upload.
theorem stream_installs (key : ObjectKey) (expectedLength : UInt64) (stream : List Bytes) :
    (putStream env key expectedLength stream).Steps (Prog.LoudLast SameFiles (Gained key)) := by
  have quietly : ∀ (state after : ServerState) (rest : Prog ServerState ObjectStoreError Bool), SameFiles state after →
      Prog.LoudLast SameFiles (Gained key) state after rest := fun _ _ _ => .inl
  have verifies := Prog.steps_mono _ _ quietly _ (verify_keeps env same_files_refl key expectedLength)
  apply Prog.steps_bind _ _ (Prog.steps_of_except _ _) quietly
  intro _
  apply Prog.steps_bind _ _ (Prog.steps_of_except _ _) quietly
  intro _
  apply Prog.steps_bind _ _ (Prog.steps_of_except _ _) quietly
  intro bytes
  apply Prog.steps_bind _ _ (Prog.acts_query _ same_files_refl) quietly
  intro present
  by_cases there : present = true
  · rw [if_pos there]
    exact verifies
  · rw [if_neg there]
    refine fun state => ⟨?_, ?_⟩
    · unfold renameInto
      by_cases taken : state.files.contains key = true
      · rw [if_pos taken]
        exact .inl rfl
      · have gains := rename_gains key bytes state
        rw [renameInto, if_neg taken] at gains
        rw [if_neg taken]
        exact .inr ⟨gains, true, rfl⟩
    · show Prog.Steps _ (if (renameInto key bytes state).1 = true then _ else _)
      split
      · trivial
      · apply Prog.steps_bind _ _ (Prog.acts_query _ same_files_refl) quietly
        intro _
        exact Prog.steps_bind _ _ (Prog.steps_of_except _ _) quietly fun _ => verifies

theorem put_installs (key : ObjectKey) (expectedLength : UInt64) (stream : List Bytes) :
    (Reply.stored <$> putTypedObject env key expectedLength stream).Steps fun state after rest =>
      SameFiles state after ∨ Gained key state after ∧ Recording key (.shared, rest) := by
  apply Prog.steps_map
  rw [put_ends]
  have quietly : ∀ (state after : ServerState) (rest : Handler Bool), SameFiles state after →
      SameFiles state after ∨ Gained key state after ∧ Recording key (.shared, Reply.stored <$> rest) := fun _ _ _ => .inl
  apply Prog.steps_bind _ _ (Prog.steps_of_except _ _) quietly
  intro _
  cases checked : ensure (expectedLength ≤ key.1.maxBytes) (HttpError.payloadTooLarge "typed object exceeds its kind limit") with
  | error reason => trivial
  | ok _ =>
      have small := (ensure_ok _ _ _).mp checked
      have ends := Prog.last_bind SameFiles (Gained key) _ (acknowledgePut key expectedLength)
        (Prog.last_error SameFiles (Gained key) HttpError.objectStore _ (stream_installs env key expectedLength stream))
        fun created => acknowledge_keeps same_files_refl key expectedLength created fun _ _ _ => rfl
      refine Prog.steps_mono _ _ (fun state after rest => Or.imp_right ?_) _ ends
      rintro ⟨gained, created, rfl⟩
      exact ⟨gained, expectedLength, created, small, rfl⟩

-- What is running is what a request has left, or the resumption of the queue.
def LeftOf (mode : Gate.Mode) (prog : Handler Reply) : Prop :=
  mode = .exclusive ∨ ∃ whole taken, Request env debug mode whole ∧ Schedule.After whole taken prog

theorem step_left (world after : ServerWorld) (step : Gate.Step (server env debug) world after)
    (left : ∀ task ∈ world.running, LeftOf env debug task.1 task.2) : ∀ task ∈ after.running, LeftOf env debug task.1 task.2 := by
  apply Gate.step_tasks (server env debug) (LeftOf env debug) _ (.inl rfl) _ world after step left
  · exact fun mode prog asked => .inr ⟨prog, [], asked, (Schedule.after_nil _ _).mpr rfl⟩
  · intro mode β step rest left state
    rcases left with alone | ⟨whole, taken, asked, path⟩
    · exact .inl alone
    · exact .inr ⟨whole, _, asked, Schedule.after_act whole taken step rest state path⟩

-- A file that comes is that of a PUT which is running and records it next.
theorem act_installs (mode : Gate.Mode) {β : Type} (step : ServerState → β × ServerState) (rest : β → Handler Reply)
    (left : LeftOf env debug mode (.act step rest)) (shared : mode = .shared) (state : ServerState) (key : ObjectKey)
    (present : key ∈ (step state).2.files) (absent : key ∉ state.files) :
    Recording key (mode, rest (step state).1) ∧ PutInFlight env key (mode, rest (step state).1) := by
  subst shared
  rcases left with alone | ⟨whole, taken, asked, path⟩
  · cases alone
  have next := Schedule.after_act whole taken step rest state path
  cases asked with
  | putTypedObject own expectedLength stream =>
      rcases (Schedule.after_steps _ _ _ _ (put_installs env own expectedLength stream) path state).1 with same | ⟨gained, records⟩
      · exact absurd (show key ∈ state.files from same ▸ present) absent
      · cases gained key present absent
        exact ⟨records, rfl, expectedLength, stream, _, next⟩
  | commitRevisionRootV4 namespaceId payload =>
      have acts := Prog.acts_map Reply.committed _ (commit_acts env debug untouched_db namespaceId payload)
      have moved := (Schedule.after_steps _ _ _ _ acts path state).1
      exact absurd (show key ∈ state.files from moved.files ▸ present) absent

theorem small_length (kind : StorageObjectKind) (length : UInt64) (small : length ≤ kind.maxBytes) : length.toNat < 2 ^ 63 := by
  have bound : kind.maxBytes.toNat < 2 ^ 63 := by cases kind <;> decide
  exact Nat.lt_of_le_of_lt (UInt64.le_iff_toNat_le.mp small) bound

theorem record_runs_small (object : StorageObjectRef) (small : object.byteLength ≤ object.kind.maxBytes) (now : Nanos)
    (db : Database) :
    ∃ after, recordStorageObject object now db = .ok after ∧ object.key ∈ after.storageObjects := by
  have fits : sqlInteger object.byteLength object.sha256 = .ok object.byteLength := if_pos (small_length _ _ small)
  by_cases known : db.storageObjects.contains object.key = true
  · refine ⟨db, ?_, Std.ExtTreeMap.contains_iff_mem.mp known⟩
    simp only [recordStorageObject, bind_ok]
    exact ⟨_, fits, if_pos known⟩
  · refine ⟨{ db with storageObjects := db.storageObjects.insert object.key ⟨object.byteLength, millis now⟩ }, ?_,
      Std.ExtTreeMap.mem_insert_self⟩
    simp only [recordStorageObject, bind_ok]
    exact ⟨_, fits, if_neg known⟩

-- The action of a PUT that records its object leaves a row.
theorem recording_acts (key : ObjectKey) (task : Gate.Mode × Handler Reply) (recording : Recording key task) :
    task.2.Acts fun _ after => key ∈ after.db.storageObjects := by
  obtain ⟨expectedLength, created, small, rfl⟩ := recording
  refine Prog.acts_map _ _ fun state => ⟨?_, Prog.acts_bind _ _ (Prog.steps_of_except _ _) fun _ => trivial⟩
  obtain ⟨after, run, present⟩ := record_runs_small ⟨key.1, key.2, expectedLength⟩ small state.clock state.db
  simp only [Prog.attemptStep, run]
  exact present

-- Every file has its row, or is about to have it.
def Recorded (world : ServerWorld) : Prop :=
  ∀ key ∈ world.state.files, key ∈ world.state.db.storageObjects ∨ ∃ task ∈ world.running, Recording key task ∧
    PutInFlight env key task

theorem held_mem (state after : ServerState) (held : RowsHeld state after) (key : ObjectKey) (present : key ∈ after.files)
    (row : key ∈ state.db.storageObjects) : key ∈ after.db.storageObjects := by
  obtain ⟨found, stored⟩ := Option.isSome_iff_exists.mp (Std.ExtTreeMap.mem_iff_isSome_getElem?.mp row)
  rw [Std.ExtTreeMap.mem_iff_isSome_getElem?, held.held key found present stored, Option.isSome_some]

theorem guar_held (mode : Gate.Mode) (state after : ServerState) (keeps : rowsGuar mode state after) : RowsHeld state after := by
  cases mode with
  | free | exclusive => exact keeps.2
  | shared => exact keeps

-- Only an action under the shared lock brings files.
theorem guar_gains (mode : Gate.Mode) (state after : ServerState) (keeps : rowsGuar mode state after) (key : ObjectKey)
    (present : key ∈ after.files) (absent : key ∉ state.files) : mode = .shared := by
  cases mode with
  | free => exact absurd (show key ∈ state.files from keeps.1 ▸ present) absent
  | shared => rfl
  | exclusive => exact absurd (keeps.1 key present) absent

theorem recording_open (key : ObjectKey) (mode : Gate.Mode) (value : Reply)
    (recording : Recording key (mode, .ret value)) : False := by
  obtain ⟨_, _, _, same⟩ := recording
  exact absurd (congrArg Prod.snd same) nofun

abbrev RowsSound (world : ServerWorld) : Prop := Gate.Sound (fun _ => True) rowsRely rowsGuar (fun _ _ => True) world

theorem recorded_step (world after : ServerWorld) (sound : RowsSound world)
    (left : ∀ task ∈ world.running, LeftOf env debug task.1 task.2) (step : Gate.Step (server env debug) world after)
    (removed : ∀ key task, Gate.Stopped (server env debug) world after task → Recording key task →
      key ∈ world.state.db.storageObjects)
    (holds : Recorded env world) : Recorded env after := by
  intro key present
  cases step with
  | arrive world mode prog asked open_ granted =>
      exact (holds key present).imp_right fun ⟨task, member, tracked⟩ => ⟨task, List.mem_cons_of_mem _ member, tracked⟩
  | act state before later mode act rest serving replies =>
      have keeps := (Gate.act_sound (rows_rules env debug) state before later mode act rest serving replies sound).1
      by_cases old : key ∈ state.files
      · rcases holds key old with row | ⟨task, member, tracked⟩
        · exact .inl (held_mem state _ (guar_held mode _ _ keeps) key present row)
        · rcases List.mem_append.mp member with earlier | others
          · exact .inr ⟨task, List.mem_append_left _ earlier, tracked⟩
          · rcases List.mem_cons.mp others with acting | behind
            · rw [acting] at tracked
              exact .inl (recording_acts key _ tracked.1 state).1
            · exact .inr ⟨task, List.mem_append_right _ (List.mem_cons_of_mem _ behind), tracked⟩
      · have shared := guar_gains mode state _ keeps key present old
        have own := left (mode, .act act rest) (List.mem_append_right _ List.mem_cons_self)
        exact .inr ⟨(mode, rest (act state).1), List.mem_append_right _ List.mem_cons_self,
          act_installs env debug mode act rest own shared state key present old⟩
  | reply state before later mode value replies =>
      refine (holds key present).imp_right fun ⟨task, member, tracked⟩ => ⟨task, ?_, tracked⟩
      rcases List.mem_append.mp member with earlier | others
      · exact List.mem_append_left _ earlier
      · rcases List.mem_cons.mp others with done | behind
        · rw [done] at tracked
          exact (recording_open key mode value tracked.1).elim
        · exact List.mem_append_right _ behind
  | booted state value replies =>
      refine (holds key present).imp_right fun ⟨task, member, tracked⟩ => ?_
      rw [List.mem_singleton.mp member] at tracked
      exact (recording_open key _ value tracked.1).elim
  | drop state before later task serving replies =>
      rcases holds key present with row | ⟨other, member, tracked⟩
      · exact .inl row
      · rcases List.mem_append.mp member with earlier | others
        · exact .inr ⟨other, List.mem_append_left _ earlier, tracked⟩
        · rcases List.mem_cons.mp others with gone | behind
          · exact .inl (removed key task (.drop state before later task serving replies) (gone ▸ tracked.1))
          · exact .inr ⟨other, List.mem_append_right _ behind, tracked⟩
  | crash world =>
      rcases holds key present with row | ⟨task, member, tracked⟩
      · exact .inl row
      · exact .inl (removed key task (.crash world task member) tracked.1)
  | drift world after moved =>
      obtain ⟨later, _, rfl⟩ := moved
      exact holds key present

-- A file that stays keeps its row; the clock goes on.
structure Kept (state after : ServerState) : Prop where
  clock : state.clock ≤ after.clock
  held : ∀ (key : ObjectKey) (row : StorageObjectRow), key ∈ after.files → state.db.storageObjects[key]? = some row →
    after.db.storageObjects[key]? = some row
  fresh : ∀ (key : ObjectKey) (row : StorageObjectRow), after.db.storageObjects[key]? = some row →
    state.db.storageObjects[key]? = some row ∨ row.createdAt = millis state.clock

theorem kept_refl (state : ServerState) : Kept state state := ⟨le_refl _, fun _ _ _ => id, fun _ _ => .inl⟩

theorem held_kept (state after : ServerState) (held : RowsHeld state after) : Kept state after :=
  ⟨le_of_eq held.clock.symm, held.held, held.fresh⟩

theorem step_kept (world after : ServerWorld) (sound : RowsSound world) (step : Gate.Step (server env debug) world after) :
    Kept world.state after.state := by
  rcases Gate.step_moves (rows_rules env debug) world after step sound with same | ⟨later, order, same⟩ | ⟨mode, keeps⟩
  · exact same ▸ kept_refl _
  · rw [same]
    exact ⟨order, fun _ _ _ => id, fun _ _ => .inl⟩
  · exact held_kept _ _ (guar_held mode _ _ keeps)

theorem threads_kept (threads after : ServerThreads) (sound : RowsSound threads.world)
    (harmless : ∀ action ∈ threads.underWay, Harmless action) (step : Gate.ThreadedStep (server env debug) threads after) :
    Kept threads.world.state after.world.state := by
  cases step with
  | runs world after underWay step alive => exact step_kept env debug world after sound step
  | leaves | crash => exact kept_refl _
  | lands world before after action =>
      exact held_kept _ _ (harmless action (List.mem_append_right _ List.mem_cons_self) world.state).2

-- What a harmless action meets is as its requests may find it.
theorem harmless_rely (action : ServerState → ServerState) (harmless : Harmless action) (mode : Gate.Mode) (state : ServerState) :
    rowsRely mode state (action state) := by
  cases mode with
  | free | shared => trivial
  | exclusive => exact (harmless state).1

structure Guarded (threads : ServerThreads) : Prop where
  sound : RowsSound threads.world
  left : ∀ task ∈ threads.world.running, LeftOf env debug task.1 task.2
  harmless : ∀ action ∈ threads.underWay, Harmless action
  past : ∀ (key : ObjectKey) (row : StorageObjectRow), threads.world.state.db.storageObjects[key]? = some row →
    row.createdAt ≤ millis threads.world.state.clock
  recorded : Recorded env threads.world

theorem guarded_booting (now : Nanos) : Guarded env debug (booting env debug now) where
  sound := Gate.boot_sound (rows_rules env debug) _ [] trivial nofun
  left task member := List.mem_singleton.mp member ▸ .inl rfl
  harmless := List.forall_mem_nil _
  past key row stored := by
    rw [booting, show (ServerState.initialized now).db.storageObjects[key]? = none from Std.ExtTreeMap.getElem?_empty] at stored
    cases stored
  recorded key present := absurd present Std.ExtTreeMap.not_mem_empty

theorem careful_recorded (threads after : ServerThreads) (careful : Careful env debug threads after)
    (guarded : Guarded env debug threads) :
    Recorded env after.world := by
  obtain ⟨step, spared, _⟩ := careful
  have removed : ∀ key task, Gate.ThreadedStopped (server env debug) threads after task → Recording key task →
      key ∈ threads.world.state.db.storageObjects := by
    intro key task stopped recording
    obtain ⟨expectedLength, created, _, same⟩ := recording
    exact spared task key stopped ⟨expectedLength, created, same⟩
  cases step with
  | runs world after underWay step alive =>
      exact recorded_step env debug world after guarded.sound guarded.left step
        (fun key task stopped => removed key task (.runs world after underWay task stopped)) guarded.recorded
  | leaves state before later mode act rest replies underWay =>
      intro key present
      refine (guarded.recorded key present).elim .inl fun ⟨task, member, tracked⟩ => ?_
      rcases List.mem_append.mp member with earlier | others
      · exact .inr ⟨task, List.mem_append_left _ earlier, tracked⟩
      · rcases List.mem_cons.mp others with rfl | behind
        · exact .inl (removed key _ (.leaves state before later mode act rest replies underWay) tracked.1)
        · exact .inr ⟨task, List.mem_append_right _ behind, tracked⟩
  | lands world before later action =>
      obtain ⟨fewer, held⟩ := guarded.harmless action (List.mem_append_right _ List.mem_cons_self) world.state
      intro key present
      exact (guarded.recorded key (fewer key present)).imp_left (held_mem _ _ held key present)
  | crash world underWay =>
      intro key present
      refine .inl ((guarded.recorded key present).elim id fun ⟨task, member, tracked⟩ => ?_)
      exact removed key task (.crash world underWay task member) tracked.1

theorem careful_guarded (threads after : ServerThreads) (careful : Careful env debug threads after)
    (guarded : Guarded env debug threads) :
    Guarded env debug after := by
  have recorded := careful_recorded env debug threads after careful guarded
  obtain ⟨step, _, quiet⟩ := careful
  have kept := threads_kept env debug threads after guarded.sound guarded.harmless step
  have past : ∀ (key : ObjectKey) (row : StorageObjectRow), after.world.state.db.storageObjects[key]? = some row →
      row.createdAt ≤ millis after.world.state.clock := by
    intro key row stored
    have later := Int.ediv_le_ediv (show (0 : Int) < 1000000 by decide) kept.clock
    rcases kept.fresh key row stored with old | new
    · exact le_trans (guarded.past key row old) later
    · exact le_trans (le_of_eq new) later
  have harmless : ∀ action ∈ after.underWay, Harmless action := fun action member =>
    (quiet action member).elim (guarded.harmless action) id
  cases step with
  | runs world after underWay step alive =>
      exact ⟨Gate.step_sound (rows_rules env debug) world after step guarded.sound, step_left env debug world after step guarded.left,
        harmless, past, recorded⟩
  | leaves state before later mode act rest replies underWay =>
      exact ⟨Gate.fewer_sound state before later _ true replies guarded.sound, fun other member =>
        guarded.left other ((List.Sublist.append_left (List.sublist_cons_self _ later) before).subset member), harmless,
          past, recorded⟩
  | lands world before later action =>
      have own := guarded.harmless action (List.mem_append_right _ List.mem_cons_self)
      exact ⟨Gate.lands_sound (rows_rules env debug) world action (fun mode => harmless_rely action own mode world.state)
        (fun _ => trivial)
        guarded.sound, guarded.left, harmless, past, recorded⟩
  | crash world underWay =>
      exact ⟨Gate.boot_sound (rows_rules env debug) world.state world.replies trivial fun _ _ => trivial,
        fun task member => List.mem_singleton.mp member ▸ .inl rfl, harmless, past, recorded⟩

theorem run_guarded (now : Nanos) (threads : ServerThreads)
    (run : Relation.ReflTransGen (Careful env debug) (booting env debug now) threads) : Guarded env debug threads := by
  induction run with
  | refl => exact guarded_booting env debug now
  | tail _ step ih => exact careful_guarded env debug _ _ step ih

theorem stays_held (key : ObjectKey) (row : StorageObjectRow) (threads later : ServerThreads) (guarded : Guarded env debug threads)
    (stored : threads.world.state.db.storageObjects[key]? = some row)
    (run : Relation.ReflTransGen (fun one other => Careful env debug one other ∧ key ∈ other.world.state.files) threads later) :
    Guarded env debug later ∧ later.world.state.db.storageObjects[key]? = some row := by
  induction run with
  | refl => exact ⟨guarded, stored⟩
  | tail _ step ih =>
      obtain ⟨careful, present⟩ := step
      have kept := threads_kept env debug _ _ ih.1.sound ih.1.harmless careful.step
      exact ⟨careful_guarded env debug _ _ careful ih.1, kept.held key row present ih.2⟩

theorem due_collectable (state : ServerState) (key : ObjectKey) (row : StorageObjectRow)
    (stored : state.db.storageObjects[key]? = some row) (due : row.createdAt ≤ millis (state.clock - hour))
    (unreached : key ∉ reachableObjects state.db state.clock) :
    Collectable env key state := by
  intro plan built
  simp only [buildGcPlan, bind_ok, pure_ok] at built
  obtain ⟨total, _, rfl⟩ := built
  rw [List.map_map, List.mem_map]
  refine ⟨(key, row), List.mem_filter.mpr ⟨Std.ExtTreeMap.mem_toList_iff_getElem?_eq_some.mpr stored, ?_⟩, rfl⟩
  have outside : (reachableObjects state.db state.clock).contains key = false := Bool.eq_false_iff.mpr unreached
  rw [decide_eq_true due, outside]
  rfl

-- An object that no PUT is bringing, and that stays for the hour of grace and is then not
-- reached, is in every plan.
theorem no_leaked_object (now : Nanos) (threads : ServerThreads)
    (run : Relation.ReflTransGen (Careful env debug) (booting env debug now) threads) :
    Tracked env threads.world ∧ ∀ key later, key ∈ threads.world.state.files →
      (∀ task ∈ threads.world.running, ¬ PutInFlight env key task) →
        Relation.ReflTransGen (fun one other => Careful env debug one other ∧ key ∈ other.world.state.files) threads later →
          threads.world.state.clock + hour ≤ later.world.state.clock →
            key ∉ reachableObjects later.world.state.db later.world.state.clock → Collectable env key later.world.state := by
  have guarded := run_guarded env debug now threads run
  refine ⟨fun key present => (guarded.recorded key present).imp_right fun ⟨task, member, _, flying⟩ => ⟨task, member, flying⟩,
    fun key later present settled stays late unreached => ?_⟩
  rcases guarded.recorded key present with known | ⟨task, member, _, flying⟩
  · obtain ⟨row, stored⟩ := Option.isSome_iff_exists.mp (Std.ExtTreeMap.mem_iff_isSome_getElem?.mp known)
    have past := guarded.past key row stored
    obtain ⟨_, still⟩ := stays_held env debug key row threads later guarded stored stays
    refine due_collectable env later.world.state key row still (le_trans past ?_) unreached
    exact Int.ediv_le_ediv (by decide) (le_sub_iff_add_le.mpr late)
  · exact absurd flying (settled task member)

theorem stopped_fewer {σ ε α : Type} (sys : Gate.System σ ε α) (world after : Gate.World σ ε α) (task : Gate.Mode × Prog σ ε α)
    (stopped : Gate.Stopped sys world after task) :
    task ∈ world.running ∧ (after.running.length < world.running.length ∨ after.serving = false) := by
  cases stopped with
  | drop state before later task serving replies =>
      refine ⟨List.mem_append_right _ List.mem_cons_self, .inl ?_⟩
      rw [List.length_append, List.length_append, List.length_cons]
      exact Nat.lt_succ_self _
  | crash world task member => exact ⟨member, .inr rfl⟩

-- A step of a server that has nothing under way.
theorem careful_runs (world after : ServerWorld) (step : Gate.Step (server env debug) world after)
    (alive : world.serving = true → after.serving = true)
    (spared : ∀ task key, Gate.Stopped (server env debug) world after task → AboutToRecord key task →
      key ∈ world.state.db.storageObjects) : Careful env debug ⟨world, []⟩ ⟨after, []⟩ where
  step := .runs world after [] step alive
  spared task key stopped about := by
    cases stopped with
    | runs _ _ _ _ stopped => exact spared task key stopped about
    | crash _ _ _ member => exact spared task key (.crash world task member) about
  harmless := List.forall_mem_nil _

theorem careful_on (world after : ServerWorld) (step : Gate.Step (server env debug) world after) (serving : after.serving = true)
    (more : world.running.length ≤ after.running.length) : Careful env debug ⟨world, []⟩ ⟨after, []⟩ := by
  refine careful_runs env debug world after step (fun _ => serving) fun task key stopped _ => ?_
  rcases (stopped_fewer _ _ _ _ stopped).2 with fewer | down
  · exact absurd more (Nat.not_le.mpr fewer)
  · rw [serving] at down
    cases down

theorem careful_other (world after : ServerWorld) (step : Gate.Step (server env debug) world after)
    (alive : world.serving = true → after.serving = true) (none_ : ∀ task ∈ world.running, ∀ key, ¬ AboutToRecord key task) :
    Careful env debug ⟨world, []⟩ ⟨after, []⟩ :=
  careful_runs env debug world after step alive fun task key stopped about =>
    absurd about (none_ task (stopped_fewer _ _ _ _ stopped).1 key)

theorem exclusive_other (prog : Handler Reply) : ∀ task ∈ [(Gate.Mode.exclusive, prog)], ∀ key, ¬ AboutToRecord key task := by
  intro task member key about
  obtain ⟨_, _, same⟩ := about
  rw [List.mem_singleton.mp member] at same
  exact absurd (congrArg Prod.fst same) nofun

theorem careful_acts (prog : Handler Reply) (state after : ServerState) (value : Reply) (run : prog.exec state = (.ok value, after)) :
    Relation.ReflTransGen (Careful env debug) ⟨⟨state, [(.exclusive, prog)], false, []⟩, []⟩
      ⟨⟨after, [(.exclusive, .ret value)], false, []⟩, []⟩ := by
  induction prog generalizing state with
  | ret other =>
      cases run
      exact .refl
  | fail error => cases run
  | act step rest ih =>
      have first := careful_other env debug _ _ (.act state [] [] .exclusive step rest false []) id (exclusive_other _)
      exact .head first (ih _ _ run)

theorem careful_boot (now : Nanos) (value : Reply) (after : ServerState)
    (run : (server env debug).boot.exec (ServerState.initialized now) = (.ok value, after)) :
    Relation.ReflTransGen (Careful env debug) (booting env debug now) ⟨⟨after, [], true, []⟩, []⟩ :=
  (careful_acts env debug _ _ after value run).tail
    (careful_other env debug _ _ (.booted after value []) nofun (exclusive_other _))

end Leaks

namespace LeakSample

open GraceSample

theorem boot_idle (env : ServerEnv) (debug : Option String → String) (state : ServerState) (idle : state.db = Database.initialized) :
    (server env debug).boot.exec state = (.ok .resumed, state) := by
  obtain ⟨db, files, gcFiles, clock⟩ := state
  cases idle
  simp only [server, Prog.exec_map, resumePendingGc, transaction, Prog.transact, Prog.exec_bind, Prog.exec, Prog.attemptStep,
    Prog.ofExcept]
  rfl

def put : Gate.Mode × Handler Reply := (.shared, Reply.stored <$> putTypedObject env key 0 [])

theorem missing : started.files.contains key = false := Std.ExtTreeMap.contains_empty

theorem free : renameInto key [] started = (true, installed) := by
  rw [renameInto, missing]
  rfl

theorem acknowledged_files (key : ObjectKey) (expectedLength : UInt64) (created : Bool) (state : ServerState) :
    SameFiles state ((Reply.stored <$> acknowledgePut key expectedLength created).exec state).2 :=
  Prog.acts_exec same_files_refl (fun _ _ _ one two => two.trans one) _
    (Prog.acts_map _ _ (acknowledge_keeps same_files_refl key expectedLength created fun _ _ _ => rfl)) state

-- A PUT that begins is to bring its file yet.
theorem put_begins (other : ObjectKey) : ¬ AboutToRecord other put := by
  intro about
  obtain ⟨expectedLength, created, same⟩ := about
  obtain ⟨rest, shape, _, more, renames, ends⟩ := put_acts_thrice
  have brought : key ∈ (put.2.exec started).2.files := by
    rw [put, shape, Prog.exec, missing, renames, Prog.exec, free, ends, acknowledged_files key 0 true installed]
    exact Std.ExtTreeMap.mem_insert_self
  rw [same, acknowledged_files other expectedLength created started] at brought
  exact absurd brought Std.ExtTreeMap.not_mem_empty

theorem careful_put :
    Relation.ReflTransGen (Careful env Sample.debug) (booting env Sample.debug 0) ⟨⟨at_ 0, [], true, [.stored true]⟩, []⟩ := by
  obtain ⟨rest, shape, _, more, renames, ends⟩ := put_acts_thrice
  have booted := careful_boot env Sample.debug 0 .resumed _ (boot_idle env Sample.debug started rfl)
  have asked : (server env Sample.debug).request .shared put.2 := Request.putTypedObject key 0 []
  have arrives :=
    careful_on env Sample.debug _ _ (.arrive ⟨started, [], true, []⟩ .shared put.2 asked rfl (List.forall_mem_nil _)) rfl
    (Nat.zero_le _)
  have looks := careful_on env Sample.debug _ _
    (.act started [] [] .shared (fun state => (state.files.contains key, state)) rest true []) rfl (le_refl _)
  have renamed := careful_on env Sample.debug _ _ (.act started [] [] .shared (renameInto key []) more true []) rfl (le_refl _)
  have recorded := careful_on env Sample.debug _ _ (acknowledged_step env Sample.debug key 0 _ _ first_acknowledged) rfl (le_refl _)
  have answers : ∀ task ∈ [((.shared, .ret (.stored true)) : Gate.Mode × Handler Reply)], ∀ key, ¬ AboutToRecord key task := by
    intro task member key about
    obtain ⟨_, _, same⟩ := about
    rw [List.mem_singleton.mp member] at same
    cases congrArg Prod.snd same
  have replied := careful_other env Sample.debug _ _ (.reply (at_ 0) [] [] .shared (Reply.stored true) []) id answers
  rw [free, ends] at renamed
  simp only [missing, renames] at looks
  rw [put, shape] at arrives
  exact ((((booted.tail arrives).tail looks).tail renamed).tail recorded).tail replied

-- A second PUT is given up while it looks for the file.
theorem careful_look : Careful env Sample.debug ⟨⟨at_ 0, [put], true, [.stored true]⟩, []⟩
    ⟨⟨at_ 0, [], true, [.stored true]⟩, [fun state => state]⟩ := by
  obtain ⟨rest, shape, _⟩ := put_acts_thrice
  refine ⟨?_, fun task other stopped about => ?_, fun action member => .inr ?_⟩
  · rw [put, shape]
    exact .leaves (at_ 0) [] [] .shared _ rest _ []
  · have member : task = put := List.mem_singleton.mp (Gate.stopped_running _ _ _ _ stopped)
    exact absurd about (member ▸ put_begins other)
  · exact List.mem_singleton.mp member ▸ fun state => ⟨fewer_files_refl state, rows_held_refl state⟩

theorem unreachable_later : key ∉ reachableObjects recordedDb (minutes 60) := fun reached => by
  have found := Std.ExtTreeSet.contains_iff_mem.mpr reached
  rw [unreached] at found
  cases found

theorem present_later (clock : Nanos) : key ∈ (at_ clock).files := Std.ExtTreeMap.mem_insert_self

end LeakSample

open LeakSample GraceSample in
theorem uploaded_object_collectable : Collectable env key (at_ (minutes 60)) := by
  have asked : (server env Sample.debug).request .shared put.2 := Request.putTypedObject key 0 []
  have arrives := careful_on env Sample.debug _ _
    (.arrive ⟨at_ 0, [], true, [.stored true]⟩ .shared put.2 asked rfl (List.forall_mem_nil _)) rfl (Nat.zero_le _)
  have lands : Careful env Sample.debug ⟨⟨at_ 0, [], true, [.stored true]⟩, [fun state => state]⟩
      ⟨⟨at_ 0, [], true, [.stored true]⟩, []⟩ :=
    ⟨.lands _ [] [] _, fun _ _ stopped => (nomatch Gate.stopped_running _ _ _ _ stopped), List.forall_mem_nil _⟩
  have later := careful_on env Sample.debug _ _ (tick 0 (minutes 60) (by decide) [] [.stored true]) rfl (le_refl _)
  have quiet := ((careful_put.tail arrives).tail careful_look).tail lands
  have leak := (no_leaked_object env Sample.debug 0 _ quiet).2 key
  exact leak ⟨⟨at_ (minutes 60), [], true, [.stored true]⟩, []⟩ (present_later 0) nofun (.single ⟨later, present_later _⟩) (by decide)
    unreachable_later

-- The server dies between the rename of a PUT and its row: after the start that follows
-- the file is there, without a row and without a PUT, and no plan lists it.
open LeakSample GraceSample in
theorem interrupted_put_leaks :
    ¬ ∀ (env : ServerEnv) (debug : Option String → String) (now : Nanos) (world : ServerWorld),
      Gate.Reachable (server env debug) (ServerState.initialized now) world → Tracked env world := by
  intro claim
  have crashed : Served ⟨installed, [(.exclusive, (server env Sample.debug).boot)], false, []⟩ := first_waits.tail (.crash _)
  have resumed := (Gate.acts_reachable _ _ .exclusive false [] _ installed crashed).1 Reply.resumed
    (congrArg Prod.fst (boot_idle env Sample.debug installed rfl))
  rw [boot_idle env Sample.debug installed rfl] at resumed
  have serving : Served ⟨installed, [], true, []⟩ := resumed.tail (.booted installed Reply.resumed [])
  rcases claim env Sample.debug 0 _ serving key Std.ExtTreeMap.mem_insert_self with row | ⟨task, member, _⟩
  · exact absurd row Std.ExtTreeMap.not_mem_empty
  · exact absurd member List.not_mem_nil

end SessionSync.Server
