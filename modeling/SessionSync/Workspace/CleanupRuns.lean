import SessionSync.Workspace.CleanupKept

set_option autoImplicit false

namespace SessionSync.Workspace

open SessionSync.Core Checked Local

theorem set_dropped_journal (disk : CleanupDisk) (journal : WorkspaceCleanupJournal) :
    (disk.dropJournal journal.operationId).setJournal journal = disk.setJournal journal := by
  have again : (disk.journals.erase journal.operationId).insert journal.operationId journal =
      disk.journals.insert journal.operationId journal := by
    apply Std.ExtTreeMap.ext_getElem?
    intro id
    rw [Keyed.lookup_insert, Keyed.lookup_insert, Keyed.lookup_erase]
    by_cases same : id = journal.operationId
    · rw [if_pos same, if_pos same]
    · rw [if_neg same, if_neg same, if_neg same]
  exact congrArg (fun journals => { disk with journals := journals }) again

theorem write_journal_safe {crash : CleanupDisk → Prop} (journal : WorkspaceCleanupJournal) (disk : CleanupDisk) (faults : List Bool)
    (here : crash disk) (gone : crash (disk.dropJournal journal.operationId)) (put : crash (disk.setJournal journal)) :
    SafeAccess crash (writeWorkspaceCleanupJournal journal)
      (fun outcome seen => outcome = .ok () → seen.state = disk.setJournal journal)
      ⟨disk, faults⟩ := by
  apply safe_pause _ _ _ here
  · intro faults
    exact Prog.safe_mono _ _ _ _ (fun _ _ _ written => written.2.1)
      (safe_atomic _ _ _ ⟨disk, faults⟩ (set_dropped_journal disk journal) here gone put)
  · exact fun error _ => no_value error ()

theorem quiet_write_journal (journal : WorkspaceCleanupJournal) (disk : CleanupDisk) :
    (writeWorkspaceCleanupJournal journal).exec ⟨disk, []⟩ = (.ok (), ⟨disk.setJournal journal, []⟩) := by
  have paused : (createDirAll : CleanupAccess Unit).exec ⟨disk, []⟩ = (.ok (), ⟨disk, []⟩) := quiet_touch _ _
  rw [writeWorkspaceCleanupJournal, Prog.exec_bind, paused]
  refine (quiet_atomic _ _ _ disk).trans ?_
  by_cases old : disk.journals.contains journal.operationId = true
  · rw [if_pos old, set_dropped_journal]
  · rw [if_neg old]

section Runs

variable {env : CleanupEnv} {base : CleanupDisk} {input : CleanupInput} {plan : CleanupPlan}

section Journals

variable {disk : CleanupDisk}

-- No part of the frame looks at another file than those it is about.
theorem frame_journals (journals : Std.ExtTreeMap Uuid WorkspaceCleanupJournal)
    (others : ∀ id : Uuid, id ≠ input.operationId → journals[id]? = disk.journals[id]?)
    (own : ∀ journal, journals[input.operationId]? = some journal → Own env input plan journal)
    (frame : Frame env base input plan disk) :
    Frame env base input plan { disk with journals := journals } := by
  refine ⟨frame.elsewhere, fun pair member => ?_, frame.others, ?_, frame.backup, fun id apart => ?_, own⟩
  · cases frame.pairs pair member with
    | home same => exact .home same
    | doubled was first second => exact .doubled was first second
    | away was first second => exact .away was first second
  · cases frame.live with
    | same still => exact .same still
    | changing bytes updated state new saved found => exact .changing bytes updated state new saved found
  · exact (others id apart).trans (frame.journals id apart)

theorem dropped_none : (disk.dropJournal input.operationId).journals[input.operationId]? = none :=
  (Keyed.lookup_erase _ _ _).trans (if_pos rfl)

theorem frame_dropped (frame : Frame env base input plan disk) : Frame env base input plan (disk.dropJournal input.operationId) := by
  refine frame_journals _ (fun id apart => (Keyed.lookup_erase _ _ _).trans (if_neg apart)) (fun journal stored => ?_) frame
  rw [show (disk.journals.erase input.operationId)[input.operationId]? = none from dropped_none] at stored
  cases stored

theorem working_dropped (working : Working env base input plan disk) :
    Working env base input plan (disk.dropJournal input.operationId) := by
  refine ⟨frame_dropped working.toFrame, fun journal stored => ?_⟩
  rw [dropped_none] at stored
  cases stored

variable (journal : WorkspaceCleanupJournal) (own : Own env input plan journal)

include own

theorem own_id : journal.operationId = input.operationId := by
  obtain ⟨status, error, rfl⟩ := own
  rfl

theorem stored_journal : (disk.setJournal journal).journals[input.operationId]? = some journal := by
  rw [← own_id journal own]
  exact (Keyed.lookup_insert _ _ _ _).trans (if_pos rfl)

theorem frame_stored (frame : Frame env base input plan disk) : Frame env base input plan (disk.setJournal journal) := by
  refine frame_journals _ (fun id apart => ?_) (fun other stored => ?_) frame
  · exact (Keyed.lookup_insert _ _ _ _).trans (if_neg (own_id journal own ▸ apart))
  · rw [show (disk.journals.insert journal.operationId journal)[input.operationId]? =
      some journal from stored_journal journal own] at stored
    cases stored
    exact own

theorem working_stored (status : journal.status ≠ .rolledBack) (working : Working env base input plan disk) :
    Working env base input plan (disk.setJournal journal) := by
  refine ⟨frame_stored journal own working.toFrame, fun other stored => ?_⟩
  rw [stored_journal journal own] at stored
  cases stored
  exact status

theorem kept_rolled_back (before : AsBefore base disk) (frame : Frame env base input plan disk) :
    Kept env base input plan (disk.setJournal journal) := ⟨frame_stored journal own frame, fun _ _ _ => before⟩

end Journals

section Moves

variable (planned : Planned env base input plan) {disk : CleanupDisk} {pair : QuarantinedWorkspaceDirectory}
  (member : pair ∈ plan.plannedQuarantines)

include planned member

section Working

variable (working : Working env base input plan disk)

include working

-- A move of the cleanup, wherever it stops.
theorem forward_working (home : AtHome base disk pair) (after : CleanupDisk)
    (stop : MoveStop disk pair.originalPath pair.quarantinePath after) : Working env base input plan after := by
  have apart := places_apart planned pair member
  cases stop with
  | before => exact working
  | doubled there =>
      refine working_pair planned member (fun place _ other => set_directory_other _ _ _ _ other) ?_ rfl rfl rfl working
      exact .doubled (home.1.symm.trans there) ((doubled_source apart).trans there) (set_directory_at _ _ _)
  | moved there =>
      refine working_pair planned member (fun place one other => moved_other _ _ _ place one other) ?_ rfl rfl rfl working
      exact .away (home.1.symm.trans there) moved_source (moved_destination apart)

-- A move of the rollback, wherever it stops.
theorem backward_working (was : base.directories pair.originalPath = some emptyDirectory) (after : CleanupDisk)
    (stop : MoveStop disk pair.quarantinePath pair.originalPath after) : Working env base input plan after := by
  have apart := Ne.symm (places_apart planned pair member)
  cases stop with
  | before => exact working
  | doubled there =>
      refine working_pair planned member (fun place other _ => set_directory_other _ _ _ _ other) ?_ rfl rfl rfl working
      exact .doubled was (set_directory_at _ _ _) ((doubled_source apart).trans there)
  | moved there =>
      refine working_pair planned member (fun place one other => moved_other _ _ _ place other one) ?_ rfl rfl rfl working
      exact .home ⟨(moved_destination apart).trans was.symm, moved_source⟩

theorem quarantine_safe (home : AtHome base disk pair) (faults : List Bool) :
    SafeAccess (Working env base input plan) (moveEmptyDirectory env pair.originalPath pair.quarantinePath)
      (fun outcome seen => outcome = .ok () → seen.state = disk.moved pair.originalPath pair.quarantinePath) ⟨disk, faults⟩ := by
  apply safe_weaken _ _ (forward_working planned member working home)
  exact Prog.safe_mono _ _ _ _ (fun outcome seen _ arrives done => (arrives done).2)
    (move_stops env (places_apart planned pair member) home.2 faults)

end Working

-- The rollback refuses to choose between two directories.
def Doubled (disk : CleanupDisk) (pair : QuarantinedWorkspaceDirectory) : Prop :=
  (disk.directories pair.quarantinePath).isSome = true ∧ (disk.directories pair.originalPath).isSome = true

-- A directory is where it was, and nothing else is touched on the way.
structure Returned (base disk : CleanupDisk) (pair : QuarantinedWorkspaceDirectory) (after : CleanupDisk) : Prop where
  home : AtHome base after pair
  single : ¬Doubled disk pair
  still : ∀ place, place ≠ pair.originalPath → place ≠ pair.quarantinePath → after.directories place = disk.directories place
  backups : after.backups = disk.backups

theorem rollback_directory_safe (working : Working env base input plan disk) (faults : List Bool) :
    SafeAccess (Working env base input plan) (rollbackDirectory env pair)
      (comesTo faults (fun _ => Returned base disk pair) (Doubled disk pair)) ⟨disk, faults⟩ := by
  have apart := Ne.symm (places_apart planned pair member)
  apply safe_probe _ _ _ _ working
  apply safe_probe _ _ _ _ working
  dsimp only
  cases working.pairs pair member with
  | home same =>
      rw [same.2]
      have single : ¬Doubled disk pair := fun both => by
        rw [Doubled, same.2] at both
        exact nomatch both.1
      exact comes_done () _ _ disk faults working ⟨same, single, fun _ _ _ => rfl, rfl⟩
  | doubled was original quarantined =>
      have both : Doubled disk pair := ⟨congrArg Option.isSome quarantined, congrArg Option.isSome original⟩
      rw [quarantined, original]
      exact comes_fails _ _ _ disk faults working both
  | away was original quarantined =>
      have single : ¬Doubled disk pair := fun both => by
        rw [Doubled, original] at both
        exact nomatch both.2
      rw [quarantined, original]
      apply comes_then _ _ (fun _ after => after = disk)
      · exact comes_fallible _ _ disk faults working rfl
      · intro _ state faults _ same
        rw [same]
        apply comes_quiet _ _ _ _ (disk.moved pair.quarantinePath pair.originalPath) _ ()
        · apply safe_weaken _ _ (backward_working planned member working was)
          refine Prog.safe_mono _ _ _ _ (fun outcome seen _ arrives value done => ?_) (move_stops env apart original faults)
          rw [(arrives done).2]
          exact ⟨⟨(moved_destination apart).trans was.symm, moved_source⟩, single,
            fun place one other => moved_other _ _ _ place other one, rfl⟩
        · exact quiet_move env apart quarantined original

end Moves

section Loops

variable (planned : Planned env base input plan)

include planned

-- The cleanup's directories, one after the other.
theorem quarantine_all_safe (disk : CleanupDisk) (faults : List Bool) (working : Working env base input plan disk)
    (home : ∀ pair ∈ plan.plannedQuarantines, AtHome base disk pair) :
    SafeAccess (Working env base input plan)
      (Prog.forEach plan.plannedQuarantines fun pair => moveEmptyDirectory env pair.originalPath pair.quarantinePath)
      (fun _ seen => Working env base input plan seen.state) ⟨disk, faults⟩ := by
  let inv : List QuarantinedWorkspaceDirectory → Faulty CleanupDisk → Prop := fun rest seen =>
    Working env base input plan seen.state ∧ rest.Nodup ∧ ∀ pair ∈ rest, pair ∈ plan.plannedQuarantines ∧ AtHome base seen.state pair
  have runs := Prog.safe_for_each (fun pair => moveEmptyDirectory env pair.originalPath pair.quarantinePath) inv (fun _ _ => True)
    (fun pair rest seen starts => ?_) plan.plannedQuarantines ⟨disk, faults⟩
    ⟨working, List.Nodup.of_map _ planned.originals, fun pair member => ⟨member, home pair member⟩⟩ fun seen ends => ends.1
  · exact Prog.safe_mono _ _ _ _ (fun outcome seen kept _ => kept) runs
  · obtain ⟨state, faults⟩ := seen
    obtain ⟨working, distinct, homes⟩ := starts
    obtain ⟨fresh, distinct⟩ := List.nodup_cons.mp distinct
    obtain ⟨member, home⟩ := homes pair List.mem_cons_self
    refine Prog.safe_mono _ _ _ _ (fun outcome seen kept arrives => ?_) (quarantine_safe planned member working home faults)
    cases outcome with
    | error error => trivial
    | ok value =>
        refine ⟨kept, distinct, fun other inside => ?_⟩
        obtain ⟨known, there⟩ := homes other (List.mem_cons_of_mem _ inside)
        have still : ∀ place, place ≠ pair.originalPath → place ≠ pair.quarantinePath → _ :=
          moved_other state _ _
        rw [arrives rfl]
        exact ⟨known, other_home planned member still other known (fun same => fresh (same ▸ inside)) there⟩

variable (env base input plan)

-- What the rollback has done when `rest` is still to come.
structure Undoing (disk : CleanupDisk) (rest : List QuarantinedWorkspaceDirectory) (state : CleanupDisk) : Prop where
  working : Working env base input plan state
  distinct : rest.Nodup
  coming : ∀ pair ∈ rest, pair ∈ plan.plannedQuarantines ∧ state.directories pair.originalPath = disk.directories pair.originalPath ∧
    state.directories pair.quarantinePath = disk.directories pair.quarantinePath
  done : ∀ pair ∈ plan.plannedQuarantines, pair ∉ rest → AtHome base state pair ∧ ¬Doubled disk pair
  backups : state.backups = disk.backups

variable {env base input plan}

theorem rollback_all_safe (disk : CleanupDisk) (faults : List Bool) (working : Working env base input plan disk) :
    SafeAccess (Working env base input plan) (Prog.forEach plan.plannedQuarantines.reverse (rollbackDirectory env))
      (comesTo faults (fun _ => Undoing env base input plan disk []) (∃ pair ∈ plan.plannedQuarantines, Doubled disk pair))
      ⟨disk, faults⟩ := by
  apply comes_for_each _ (Undoing env base input plan disk)
  · intro pair rest state faults starts
    obtain ⟨fresh, distinct⟩ := List.nodup_cons.mp starts.distinct
    obtain ⟨member, original, quarantined⟩ := starts.coming pair List.mem_cons_self
    have same : Doubled state pair ↔ Doubled disk pair := by rw [Doubled, Doubled, original, quarantined]
    refine comes_mono _ _ _ _ _ _ _ (fun _ after kept returned => ?_) (fun both => ⟨pair, member, same.mp both⟩)
      (rollback_directory_safe planned member starts.working faults)
    refine ⟨kept, distinct, fun other inside => ?_, fun other inside finished => ?_, returned.backups.trans starts.backups⟩
    · obtain ⟨known, one, two⟩ := starts.coming other (List.mem_cons_of_mem _ inside)
      obtain ⟨first, second⟩ := pairs_apart planned pair other member known fun same => fresh (same ▸ inside)
      exact ⟨known, (returned.still _ first.1 first.2).trans one, (returned.still _ second.1 second.2).trans two⟩
    · by_cases here : pair = other
      · exact here ▸ ⟨returned.home, fun both => returned.single (same.mpr both)⟩
      · have before : other ∉ pair :: rest := fun somewhere => (List.mem_cons.mp somewhere).elim (fun same => here same.symm) finished
        obtain ⟨home, single⟩ := starts.done other inside before
        exact ⟨other_home planned member returned.still other inside here home, single⟩
  · exact fun state ends => ends.working
  · refine ⟨working, ?_, fun pair inside => ⟨List.mem_reverse.mp inside, rfl, rfl⟩, fun pair inside finished => ?_, rfl⟩
    · exact List.nodup_reverse.mpr (List.Nodup.of_map _ planned.originals)
    · exact absurd (List.mem_reverse.mpr inside) finished

end Loops

section Globals

variable (disk : CleanupDisk)

theorem home_all (new : NewCleanup input.operationId base) (planned : Planned env base input plan)
    (frame : Frame env base input plan disk) (home : ∀ pair ∈ plan.plannedQuarantines, AtHome base disk pair) :
    disk.directories = base.directories := by
  funext place
  by_cases outside : ∀ pair ∈ plan.plannedQuarantines, place ≠ pair.originalPath ∧ place ≠ pair.quarantinePath
  · exact frame.elsewhere place outside
  · push Not at outside
    obtain ⟨pair, member, inside⟩ := outside
    obtain ⟨original, quarantined⟩ := home pair member
    by_cases there : place = pair.originalPath
    · rw [there, original]
    · obtain ⟨index, name, named⟩ := (planned.kinds pair member).2
      rw [inside there, quarantined, named, new.unused index name]

theorem globals_before (frame : Frame env base input plan disk)
    (same : disk.globalStates (globalStatePath input.codexHome) = base.globalStates (globalStatePath input.codexHome)) :
    disk.globalStates = base.globalStates := by
  funext path
  by_cases here : path = globalStatePath input.codexHome
  · rw [here, same]
  · exact frame.others path here

theorem working_global (value : Option Bytes)
    (live : Live base input plan (disk.setGlobalState (globalStatePath input.codexHome) value))
    (working : Working env base input plan disk) :
    Working env base input plan (disk.setGlobalState (globalStatePath input.codexHome) value) := by
  refine ⟨⟨working.elsewhere, fun pair member => ?_, fun path apart => ?_, live, working.backup, working.journals, working.own⟩,
    working.unfinished⟩
  · cases working.pairs pair member with
    | home same => exact .home same
    | doubled was first second => exact .doubled was first second
    | away was first second => exact .away was first second
  · exact (if_neg apart).trans (working.others path apart)

-- What the rollback does with a backup that has been read.
def resetGlobalState (env : CleanupEnv) (input : CleanupInput) (bytes updated backupBytes : Bytes) : CleanupAccess Unit := do
  let current ← inspect fun disk => .ok (disk.globalStates (globalStatePath input.codexHome))
  match current with
  | some liveBytes =>
      if digestBytes env.lib liveBytes = digestBytes env.lib bytes then return
      else if digestBytes env.lib liveBytes = digestBytes env.lib updated then
        replaceFileIfHashMatches env (globalStatePath input.codexHome) (digestBytes env.lib updated) backupBytes
      else .fail "Codex global state changed after workspace cleanup; refusing rollback overwrite"
  | none => writeNewGlobalState (globalStatePath input.codexHome) backupBytes

-- The backup that the journal names is not there.
def Unsaved (disk : CleanupDisk) (journal : WorkspaceCleanupJournal) : Prop :=
  ∃ backup, journal.globalStateBackup = some backup ∧ disk.backups backup = none

-- The directories are not touched here.
structure Reset (base disk : CleanupDisk) (journal : WorkspaceCleanupJournal) (after : CleanupDisk) : Prop where
  globals : after.globalStates = base.globalStates
  still : after.directories = disk.directories
  saved : ¬Unsaved disk journal

variable (planned : Planned env base input plan)

include planned

theorem reset_changed (faults : List Bool) (bytes updated backupBytes : Bytes) (journal : WorkspaceCleanupJournal)
    (state : plan.globalState = some bytes) (new : plan.updatedState = some updated)
    (saved : disk.backups input.operationId = some backupBytes) (present : ¬Unsaved disk journal)
    (working : Working env base input plan disk) :
    SafeAccess (Working env base input plan) (resetGlobalState env input bytes updated backupBytes)
      (comesTo faults (fun _ => Reset base disk journal) (Unsaved disk journal)) ⟨disk, faults⟩ := by
  have same : backupBytes = bytes := Option.some.inj ((working.backup backupBytes saved).symm.trans state)
  have was : base.globalStates (globalStatePath input.codexHome) = some bytes := planned.state.symm.trans state
  subst same
  have restored : Live base input plan (disk.setGlobalState (globalStatePath input.codexHome) (some backupBytes)) :=
    .same ((if_pos rfl).trans was.symm)
  have reset : Reset base disk journal (disk.setGlobalState (globalStatePath input.codexHome) (some backupBytes)) :=
    ⟨globals_before _ (working_global disk _ restored working).toFrame ((if_pos rfl).trans was.symm), rfl, present⟩
  apply comes_then _ _ (fun current after => current = disk.globalStates (globalStatePath input.codexHome) ∧ after = disk)
  · refine comes_inspect _ _ _ disk faults working (fun value read => ?_) fun error refused => no_value error _ refused.symm
    cases read
    exact ⟨rfl, rfl⟩
  · intro current after faults _ read
    obtain ⟨rfl, rfl⟩ := read
    cases live : after.globalStates (globalStatePath input.codexHome) with
    | none =>
        refine comes_touch _ _ _ after faults working (fun last ran => ?_) fun error refused => ?_
        · simp only [bind_ok, ensure_ok, pure_ok] at ran
          obtain ⟨_, _, rfl⟩ := ran
          exact ⟨working_global after _ restored working, reset⟩
        · rw [live] at refused
          cases refused
    | some liveBytes =>
        dsimp only
        by_cases original : digestBytes env.lib liveBytes = digestBytes env.lib backupBytes
        · have still : after.globalStates (globalStatePath input.codexHome) = some backupBytes := by
            cases working.live with
            | same still => exact still.trans was
            | changing first second known other _ found =>
                cases state.symm.trans known
                cases new.symm.trans other
                rw [live] at found ⊢
                cases found.resolve_left (Option.some_ne_none _)
                rw [planned.apart backupBytes _ state new original.symm]
          rw [if_pos original]
          exact comes_done () _ _ after faults working ⟨globals_before after working.toFrame (still.trans was.symm), rfl, present⟩
        · have changed : liveBytes = updated := by
            cases working.live with
            | same still =>
                cases live.symm.trans (still.trans was)
                exact absurd rfl original
            | changing first second known other _ found =>
                cases new.symm.trans other
                rw [live] at found
                exact Option.some.inj (found.resolve_left (Option.some_ne_none _))
          subst changed
          have gone : Live base input plan (after.setGlobalState (globalStatePath input.codexHome) none) :=
            .changing backupBytes liveBytes state new saved (.inl (if_pos rfl))
          rw [if_neg original, if_pos rfl]
          apply comes_quiet _ _ _ _ (after.setGlobalState (globalStatePath input.codexHome) (some backupBytes)) _ ()
          · refine Prog.safe_mono _ _ _ _ (fun outcome seen _ arrives value done => ?_)
              (replace_safe env _ _ backupBytes after faults working fun other stored matched => ?_)
            · rw [arrives done]
              exact reset
            · exact ⟨working_global after _ gone working, working_global after _ restored working⟩
          · exact quiet_replace env _ _ backupBytes after liveBytes live rfl

omit planned in
theorem nothing_saved (journal : WorkspaceCleanupJournal) (none : journal.globalStateBackup = none) :
    rollbackGlobalState env journal = pure () := by
  unfold rollbackGlobalState
  rw [none]
  cases journal.globalStatePath <;> rfl

omit planned in
theorem own_backup (journal : WorkspaceCleanupJournal) (own : Own env input plan journal) :
    journal.globalStateBackup = plan.globalState.bind fun _ => plan.updatedState.map fun _ => input.operationId := by
  obtain ⟨status, error, rfl⟩ := own
  rfl

theorem rollback_global_safe (faults : List Bool) (journal : WorkspaceCleanupJournal) (own : Own env input plan journal)
    (working : Working env base input plan disk) :
    SafeAccess (Working env base input plan) (rollbackGlobalState env journal)
      (comesTo faults (fun _ => Reset base disk journal) (Unsaved disk journal)) ⟨disk, faults⟩ := by
  have backup := own_backup journal own
  have nothing : journal.globalStateBackup = none → SafeAccess (Working env base input plan) (rollbackGlobalState env journal)
      (comesTo faults (fun _ => Reset base disk journal) (Unsaved disk journal)) ⟨disk, faults⟩ := by
    intro none
    rw [nothing_saved journal none]
    refine comes_done () _ _ disk faults working ⟨globals_before disk working.toFrame ?_, rfl, fun missing => ?_⟩
    · cases working.live with
      | same still => exact still
      | changing bytes updated state new _ _ =>
          rw [backup, state, new] at none
          cases none
    · obtain ⟨saved, named, _⟩ := missing
      rw [none] at named
      cases named
  cases state : plan.globalState with
  | none => exact nothing (by rw [backup, state]; rfl)
  | some bytes =>
      cases new : plan.updatedState with
      | none => exact nothing (by rw [backup, state, new]; rfl)
      | some updated =>
          rw [state, new] at backup
          have fields : rollbackGlobalState env journal = (do
              let backupBytes ← inspect fun disk : CleanupDisk =>
                found (disk.backups input.operationId) "failed to read workspace cleanup backup"
              Prog.ofExcept (ensure (digestBytes env.lib backupBytes = digestBytes env.lib bytes)
                "workspace cleanup global-state backup failed hash validation")
              resetGlobalState env input bytes updated backupBytes) := by
            obtain ⟨status, error, rfl⟩ := own
            simp only [rollbackGlobalState, newJournal, state, new, Option.map, Option.bind]
            rfl
          rw [fields]
          apply comes_then _ _ (fun backupBytes after => disk.backups input.operationId = some backupBytes ∧ after = disk)
          · refine comes_inspect _ _ _ disk faults working
              (fun backupBytes read => ⟨(found_ok _ _ _).mp read, rfl⟩) fun error refused => ?_
            refine ⟨input.operationId, backup, ?_⟩
            cases saved : disk.backups input.operationId with
            | none => rfl
            | some backupBytes =>
                rw [saved] at refused
                cases refused
          · intro backupBytes after faults _ read
            obtain ⟨saved, rfl⟩ := read
            have present : ¬Unsaved after journal := fun missing => by
              obtain ⟨_, named, missing⟩ := missing
              cases backup.symm.trans named
              cases saved.symm.trans missing
            apply comes_check _ _ _ _ _ _ working
            · exact fun _ _ => reset_changed after planned faults bytes updated backupBytes journal state new saved present working
            · intro error refused
              rw [Option.some.inj ((working.backup backupBytes saved).symm.trans state), ensure, if_pos rfl] at refused
              cases refused

end Globals

-- What a rollback cannot get past.
def Stuck (disk : CleanupDisk) (journal : WorkspaceCleanupJournal) : Prop :=
  Unsaved disk journal ∨ ∃ pair ∈ journal.plannedQuarantines, Doubled disk pair

structure Undone (base disk : CleanupDisk) (journal : WorkspaceCleanupJournal) (after : CleanupDisk) : Prop where
  before : AsBefore base after
  stored : after.journals[journal.operationId]? = some { journal with status := .rolledBack }
  free : ¬Stuck disk journal

theorem rollback_safe (new : NewCleanup input.operationId base) (planned : Planned env base input plan)
    (journal : WorkspaceCleanupJournal) (own : Own env input plan journal) (disk : CleanupDisk) (faults : List Bool)
    (working : Working env base input plan disk) :
    SafeAccess (Kept env base input plan) (rollbackWorkspaceCleanup env journal)
      (comesTo faults (fun _ => Undone base disk journal) (Stuck disk journal)) ⟨disk, faults⟩ := by
  have moves : journal.plannedQuarantines = plan.plannedQuarantines := by
    obtain ⟨status, error, rfl⟩ := own
    rfl
  have rolled : Own env input plan { journal with status := .rolledBack } := by
    obtain ⟨status, error, rfl⟩ := own
    exact ⟨.rolledBack, error, rfl⟩
  apply comes_then _ _ (fun _ => Undoing env base input plan disk [])
  · rw [moves]
    apply safe_weaken _ _ working_kept
    exact comes_mono _ _ _ _ _ _ _ (fun _ _ _ ends => ends) (fun both => .inr (moves ▸ both))
      (rollback_all_safe planned disk faults working)
  · intro _ mid faults _ undoing
    have home : mid.directories = base.directories :=
      home_all mid new planned undoing.working.toFrame fun pair member => (undoing.done pair member List.not_mem_nil).1
    have single : ¬∃ pair ∈ journal.plannedQuarantines, Doubled disk pair := by
      rintro ⟨pair, member, both⟩
      exact (undoing.done pair (moves ▸ member) List.not_mem_nil).2 both
    have backups : Unsaved mid journal ↔ Unsaved disk journal := by rw [Unsaved, Unsaved, undoing.backups]
    apply comes_then _ _ (fun _ after => Working env base input plan after ∧ Reset base mid journal after)
    · apply safe_weaken _ _ working_kept
      exact comes_mono _ _ _ _ _ _ _ (fun _ _ kept reset => ⟨kept, reset⟩) (fun missing => .inl (backups.mp missing))
        (rollback_global_safe mid planned faults journal own undoing.working)
    · intro _ last faults _ ended
      obtain ⟨working, reset⟩ := ended
      have before : AsBefore base last := ⟨reset.still.trans home, reset.globals⟩
      have free : ¬Stuck disk journal := fun stuck => stuck.elim (fun missing => reset.saved (backups.mpr missing)) single
      have dropped : Working env base input plan (last.dropJournal journal.operationId) := by
        rw [own_id journal own]
        exact working_dropped working
      apply comes_quiet _ _ _ _ (last.setJournal { journal with status := .rolledBack }) _ ()
      · refine Prog.safe_mono _ _ _ _ (fun outcome seen _ arrives value done => ?_)
          (write_journal_safe { journal with status := .rolledBack } last faults (working_kept last working)
            (working_kept _ dropped) (kept_rolled_back _ rolled before working.toFrame))
        rw [arrives done]
        exact ⟨before, (Keyed.lookup_insert _ _ _ _).trans (if_pos rfl), free⟩
      · exact quiet_write_journal _ last

end Runs

end SessionSync.Workspace
