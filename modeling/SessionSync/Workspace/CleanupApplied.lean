import SessionSync.Workspace.CleanupRuns

set_option autoImplicit false

namespace SessionSync.Workspace

open SessionSync.Core Checked Local

section Plan

variable (env : CleanupEnv)

theorem selected_distinct (report : List WorkspacePathEntry) (requested seen : List String) (selected : List WorkspacePathEntry)
    (ran : selectEntries env report requested seen = .ok selected) :
    (selected.map fun entry => env.normalizePathForMatch entry.path).Nodup ∧
      ∀ entry ∈ selected, env.normalizePathForMatch entry.path ∉ seen := by
  induction requested generalizing seen selected with
  | nil =>
      cases ran
      exact ⟨List.nodup_nil, fun _ member => absurd member List.not_mem_nil⟩
  | cons request rest ih =>
      simp only [selectEntries, bind_ok, ensure_ok, found_ok, pure_ok] at ran
      obtain ⟨_, fresh, entry, available, others, ran, rfl⟩ := ran
      obtain ⟨distinct, apart⟩ := ih _ _ ran
      have known : env.normalizePathForMatch entry.path = env.normalizePathForMatch (String.ofList (Server.trim request)) := by
        have found := List.find?_some available
        simp only [Bool.and_eq_true, decide_eq_true_eq] at found
        exact found.2
      refine ⟨List.nodup_cons.mpr ⟨fun inside => ?_, distinct⟩, fun other member => ?_⟩
      · obtain ⟨other, member, same⟩ := List.mem_map.mp inside
        exact apart other member (List.mem_cons.mpr (.inl (same.trans known)))
      · cases List.mem_cons.mp member with
        | inl same => rw [same, known]; exact fresh
        | inr later => exact fun inside => apart other later (List.mem_cons_of_mem _ inside)

theorem planned_entry (operationId : Uuid) (selected : List WorkspacePathEntry) (index : Nat)
    (planned : QuarantinedWorkspaceDirectory) (member : planned ∈ planQuarantines env operationId selected index) :
    (∃ entry ∈ selected, planned.originalPath = .workspace entry.path) ∧
      ∃ later name, index ≤ later ∧ planned.quarantinePath = .quarantine operationId later name := by
  induction selected generalizing index with
  | nil => cases member
  | cons entry rest ih =>
      have later : planned ∈ planQuarantines env operationId rest (index + 1) →
          (∃ other ∈ entry :: rest, planned.originalPath = .workspace other.path) ∧
            ∃ later name, index ≤ later ∧ planned.quarantinePath = .quarantine operationId later name := by
        intro inside
        obtain ⟨⟨other, known, path⟩, later, name, bound, place⟩ := ih (index + 1) inside
        exact ⟨⟨other, List.mem_cons_of_mem _ known, path⟩, later, name, by omega, place⟩
      by_cases empty : entry.directoryState = .empty
      · rw [planQuarantines, if_pos empty] at member
        cases List.mem_cons.mp member with
        | inl same => exact ⟨⟨entry, List.mem_cons_self, congrArg _ same⟩, index, _, le_rfl, congrArg _ same⟩
        | inr inside => exact later inside
      · rw [planQuarantines, if_neg empty] at member
        exact later member

theorem planned_distinct (operationId : Uuid) (selected : List WorkspacePathEntry) (index : Nat)
    (distinct : (selected.map fun entry => env.normalizePathForMatch entry.path).Nodup) :
    ((planQuarantines env operationId selected index).map QuarantinedWorkspaceDirectory.originalPath).Nodup ∧
      ((planQuarantines env operationId selected index).map QuarantinedWorkspaceDirectory.quarantinePath).Nodup := by
  induction selected generalizing index with
  | nil => exact ⟨List.nodup_nil, List.nodup_nil⟩
  | cons entry rest ih =>
      obtain ⟨fresh, distinct⟩ := List.nodup_cons.mp distinct
      obtain ⟨originals, quarantines⟩ := ih (index + 1) distinct
      by_cases empty : entry.directoryState = .empty
      · rw [planQuarantines, if_pos empty]
        refine ⟨List.nodup_cons.mpr ⟨fun inside => ?_, originals⟩, List.nodup_cons.mpr ⟨fun inside => ?_, quarantines⟩⟩
        · obtain ⟨planned, member, same⟩ := List.mem_map.mp inside
          obtain ⟨⟨other, known, path⟩, _⟩ := planned_entry env operationId rest (index + 1) planned member
          have paths : other.path = entry.path := Place.workspace.inj (path.symm.trans same)
          exact fresh (List.mem_map.mpr ⟨other, known, congrArg _ paths⟩)
        · obtain ⟨planned, member, same⟩ := List.mem_map.mp inside
          obtain ⟨_, later, name, bound, place⟩ := planned_entry env operationId rest (index + 1) planned member
          have indices := (Place.quarantine.inj (place.symm.trans same)).2.1
          omega
      · rw [planQuarantines, if_neg empty]
        exact ⟨originals, quarantines⟩

-- What the removal is trusted with: a changed state has another digest.
def TellsApart : Prop := ∀ identities bytes removed updated, env.removeCodexProjectPaths identities bytes = .ok removed →
  removed.updated = some updated → digestBytes env.lib bytes = digestBytes env.lib updated → bytes = updated

theorem plan_planned (tells : TellsApart env) (input : CleanupInput) (base : CleanupDisk) (plan : CleanupPlan)
    (ran : planCleanup env input base = .ok plan) : Planned env base input plan := by
  simp only [planCleanup, bind_ok, ensure_ok, pure_ok] at ran
  obtain ⟨report, _, selected, chosen, removed, removal, _, _, rfl⟩ := ran
  obtain ⟨distinct, _⟩ := selected_distinct env report _ _ selected chosen
  obtain ⟨originals, quarantines⟩ := planned_distinct env input.operationId selected 0 distinct
  refine ⟨rfl, fun changed none => ?_, fun bytes updated state new same => ?_, originals, quarantines, fun planned member => ?_⟩
  · dsimp only at none changed
    rw [none, planGlobalState] at removal
    cases removal
    exact changed rfl
  · dsimp only at state new
    rw [state, planGlobalState] at removal
    simp only [bind_ok] at removal
    obtain ⟨_, _, removal⟩ := removal
    exact tells _ bytes removed updated removal new same
  · obtain ⟨⟨entry, _, path⟩, index, name, _, place⟩ := planned_entry env input.operationId selected 0 planned member
    exact ⟨⟨entry.path, path⟩, index, name, place⟩

end Plan

section Applied

variable {env : CleanupEnv} {base : CleanupDisk} {input : CleanupInput} {plan : CleanupPlan}

variable (env base input plan)

-- The journal alone is another one.
structure Rewritten (disk after : CleanupDisk) : Prop where
  working : Working env base input plan after
  directories : after.directories = disk.directories
  globals : after.globalStates = disk.globalStates
  backups : after.backups = disk.backups

variable {env base input plan}

theorem write_own_safe {crash : CleanupDisk → Prop} (journal : WorkspaceCleanupJournal) (own : Own env input plan journal)
    (status : journal.status ≠ .rolledBack) (keeps : ∀ disk, Working env base input plan disk → crash disk) (disk : CleanupDisk)
    (faults : List Bool) (working : Working env base input plan disk) :
    SafeAccess crash (writeWorkspaceCleanupJournal journal)
      (fun outcome seen => outcome = .ok () → Rewritten env base input plan disk seen.state) ⟨disk, faults⟩ := by
  have dropped : Working env base input plan (disk.dropJournal journal.operationId) := by
    rw [own_id journal own]
    exact working_dropped working
  have stored := working_stored journal own status working
  refine Prog.safe_mono _ _ _ _ (fun outcome seen _ arrives done => ?_)
    (write_journal_safe journal disk faults (keeps disk working) (keeps _ dropped) (keeps _ stored))
  rw [arrives done]
  exact ⟨stored, rfl, rfl, rfl⟩

variable (base input plan)

-- A state that is changed has its backup, and no directory has moved yet.
structure Ready (disk : CleanupDisk) : Prop where
  home : disk.directories = base.directories
  saved : plan.updatedState ≠ none → disk.backups input.operationId = plan.globalState

variable {base input plan}

theorem home_each (new : NewCleanup input.operationId base) (planned : Planned env base input plan) (disk : CleanupDisk)
    (home : disk.directories = base.directories) (pair : QuarantinedWorkspaceDirectory) (member : pair ∈ plan.plannedQuarantines) :
    AtHome base disk pair := by
  obtain ⟨index, name, place⟩ := (planned.kinds pair member).2
  refine ⟨congrFun home _, (congrFun home _).trans ?_⟩
  rw [place]
  exact new.unused index name

theorem working_saved (disk : CleanupDisk) (bytes : Bytes) (state : plan.globalState = some bytes)
    (working : Working env base input plan disk) :
    Working env base input plan
      { disk with backups := fun other => if other = input.operationId then some bytes else disk.backups other } := by
  refine ⟨⟨working.elsewhere, fun pair member => ?_, working.others, ?_, fun saved there => ?_, working.journals, working.own⟩,
    working.unfinished⟩
  · cases working.pairs pair member with
    | home same => exact .home same
    | doubled was first second => exact .doubled was first second
    | away was first second => exact .away was first second
  · cases working.live with
    | same still => exact .same still
    | changing other updated known new _ found =>
        cases state.symm.trans known
        exact .changing bytes updated state new (if_pos rfl) found
  · dsimp only at there
    rw [if_pos rfl] at there
    exact there ▸ state

theorem back_up_safe (planned : Planned env base input plan) (disk : CleanupDisk) (faults : List Bool)
    (home : disk.directories = base.directories) (states : disk.globalStates = base.globalStates)
    (working : Working env base input plan disk) :
    SafeAccess (Working env base input plan) (backUpGlobalState input plan)
      (fun outcome seen => outcome = .ok () → Ready base input plan seen.state ∧
        seen.state.globalStates = base.globalStates) ⟨disk, faults⟩ := by
  cases changed : plan.updatedState with
  | none =>
      have idle : backUpGlobalState input plan = pure () := by
        unfold backUpGlobalState
        rw [changed]
        cases plan.globalState <;> rfl
      rw [idle]
      exact safe_done _ _ _ working fun _ => ⟨⟨home, fun some => absurd changed some⟩, states⟩
  | some updated =>
      cases state : plan.globalState with
      | none => exact absurd state (planned.updates (by rw [changed]; exact Option.some_ne_none _))
      | some bytes =>
          unfold backUpGlobalState
          rw [state, changed]
          apply safe_pause _ _ _ working
          · intro faults
            apply safe_touch _ _ _ working
            · intro after rest ran _
              simp only [bind_ok, ensure_ok, pure_ok] at ran
              obtain ⟨_, _, rfl⟩ := ran
              exact ⟨working_saved disk bytes state working, fun _ => ⟨⟨home, fun _ => (if_pos rfl).trans state.symm⟩, states⟩⟩
            · exact fun error _ _ => no_value error ()
          · exact fun error _ => no_value error ()

theorem update_safe (planned : Planned env base input plan) (disk : CleanupDisk) (faults : List Bool)
    (ready : Ready base input plan disk) (working : Working env base input plan disk) :
    SafeAccess (Working env base input plan) (updateGlobalState env input plan)
      (fun outcome seen => outcome = .ok () → seen.state.directories = base.directories) ⟨disk, faults⟩ := by
  cases changed : plan.updatedState with
  | none =>
      have idle : updateGlobalState env input plan = pure () := by
        unfold updateGlobalState
        rw [changed]
        cases plan.globalState <;> rfl
      rw [idle]
      exact safe_done _ _ _ working fun _ => ready.home
  | some updated =>
      cases state : plan.globalState with
      | none => exact absurd state (planned.updates (by rw [changed]; exact Option.some_ne_none _))
      | some bytes =>
          have saved : disk.backups input.operationId = some bytes :=
            (ready.saved (by rw [changed]; exact Option.some_ne_none _)).trans state
          have gone : Live base input plan (disk.setGlobalState (globalStatePath input.codexHome) none) :=
            .changing bytes updated state changed saved (.inl (if_pos rfl))
          have put : Live base input plan (disk.setGlobalState (globalStatePath input.codexHome) (some updated)) :=
            .changing bytes updated state changed saved (.inr (if_pos rfl))
          unfold updateGlobalState
          rw [state, changed]
          refine Prog.safe_mono _ _ _ _ (fun outcome seen _ arrives done => ?_)
            (replace_safe env _ _ updated disk faults working fun live _ _ => ?_)
          · rw [arrives done]
            exact ready.home
          · exact ⟨working_global disk _ gone working, working_global disk _ put working⟩

theorem apply_safe (new : NewCleanup input.operationId base) (planned : Planned env base input plan) (disk : CleanupDisk)
    (faults : List Bool) (home : disk.directories = base.directories) (states : disk.globalStates = base.globalStates)
    (working : Working env base input plan disk) :
    SafeAccess (Working env base input plan) (applyCleanup env input plan) (fun _ seen => Working env base input plan seen.state)
      ⟨disk, faults⟩ := by
  apply safe_then _ _ _ _ _ (back_up_safe planned disk faults home states working)
  · intro _ seen working ends
    obtain ⟨state, faults⟩ := seen
    obtain ⟨ready, states⟩ := ends rfl
    apply safe_then _ _ _ _ _ (write_own_safe { newJournal env input plan with status := .backedUp } ⟨_, _, rfl⟩ nofun (fun _ => id)
      state faults working)
    · intro _ seen working same
      obtain ⟨state, faults⟩ := seen
      have same := same rfl
      have saved : plan.updatedState ≠ none → state.backups input.operationId = plan.globalState := same.backups ▸ ready.saved
      apply safe_then _ _ _ _ _
        (update_safe planned state faults ⟨same.directories.trans ready.home, saved⟩ working)
      · intro _ seen working home
        obtain ⟨state, faults⟩ := seen
        apply safe_then _ _ _ _ _ (write_own_safe { newJournal env input plan with status := .projectStateUpdated } ⟨_, _, rfl⟩ nofun
          (fun _ => id) state faults working)
        · intro _ seen working same
          obtain ⟨state, faults⟩ := seen
          apply safe_pause _ _ _ working
          · intro faults
            exact quarantine_all_safe planned state faults working
              (home_each new planned state ((same rfl).directories.trans (home rfl)))
          · exact fun _ _ => working
        · exact fun _ _ kept _ => kept
      · exact fun _ _ kept _ => kept
    · exact fun _ _ kept _ => kept
  · exact fun _ _ kept _ => kept

theorem finish_safe (new : NewCleanup input.operationId base) (planned : Planned env base input plan) (applied : Except String Unit)
    (disk : CleanupDisk) (faults : List Bool) (working : Working env base input plan disk) :
    SafeAccess (Kept env base input plan) (finishCleanup env input plan applied) (fun _ _ => True) ⟨disk, faults⟩ := by
  cases applied with
  | ok value =>
      apply safe_then _ _ _ _ _ (write_own_safe { newJournal env input plan with status := .completed } ⟨_, _, rfl⟩ nofun working_kept
        disk faults working)
      · exact fun _ seen kept _ => safe_done _ _ _ kept trivial
      · exact fun _ _ _ _ => trivial
  | error error =>
      have undoing := rollback_safe new planned { newJournal env input plan with error := some error } ⟨_, _, rfl⟩ disk faults working
      apply safe_tries _ _ _ _ _ undoing
      intro outcome seen kept _
      cases outcome with
      | ok value => exact ⟨kept, trivial⟩
      | error rollbackError => exact ⟨kept, trivial⟩

-- Before its journal a cleanup has left nothing behind.
theorem clean_up_safe (tells : TellsApart env) (new : NewCleanup input.operationId base) (faults : List Bool) :
    SafeAccess (fun disk => disk = base ∨ ∃ plan, Planned env base input plan ∧ Kept env base input plan disk) (cleanUp env input)
      (fun _ _ => True) ⟨base, faults⟩ := by
  apply safe_look _ _ _ _ (.inl rfl)
  · intro plan faults ran
    have planned := plan_planned env tells input base plan ran
    have keeps : ∀ disk, Kept env base input plan disk → disk = base ∨ ∃ plan, Planned env base input plan ∧
      Kept env base input plan disk :=
      fun disk kept => .inr ⟨plan, planned, kept⟩
    apply safe_weaken _ _ keeps
    have start := frame_start new planned
    apply safe_then _ _ _ _ _ (write_own_safe (newJournal env input plan) ⟨_, _, rfl⟩ nofun working_kept base faults start)
    · intro _ seen _ same
      obtain ⟨state, faults⟩ := seen
      have same := same rfl
      have applied := apply_safe new planned state faults same.directories same.globals same.working
      apply safe_tries _ _ _ _ _ (safe_weaken _ _ working_kept _ _ _ applied)
      intro outcome seen _ working
      obtain ⟨state, faults⟩ := seen
      exact finish_safe new planned outcome state faults working
    · exact fun _ _ _ _ => trivial
  · exact fun _ _ => trivial

end Applied

end SessionSync.Workspace
