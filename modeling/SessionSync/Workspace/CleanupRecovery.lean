import SessionSync.Core.Sha256
import SessionSync.Workspace.CleanupApplied

set_option autoImplicit false

namespace SessionSync.Workspace

open SessionSync.Core Checked Local

section Recovery

variable (env : CleanupEnv) (codexHome : String)

-- The recovery has something to do for this one.
def Open (journal : WorkspaceCleanupJournal) : Prop :=
  env.normalizePathForMatch journal.codexHome = env.normalizePathForMatch codexHome ∧ journal.terminal = false

-- Every cleanup of this home is completed or rolled back.
def Settled (disk : CleanupDisk) : Prop := ∀ (id : Uuid) journal, disk.journals[id]? = some journal →
  journal.schemaVersion = workspaceCleanupJournalSchemaVersion ∧ ¬Open env codexHome journal

def Jammed (disk : CleanupDisk) : Prop :=
  ∃ (id : Uuid) (journal : WorkspaceCleanupJournal), disk.journals[id]? = some journal ∧ Open env codexHome journal ∧
    Stuck disk journal

variable {env codexHome}

section One

variable {crash : CleanupDisk → Prop} (id : Uuid) (journal : WorkspaceCleanupJournal) (good : Unit → CleanupDisk → Prop)
    (blocked : Prop)
  (disk : CleanupDisk) (faults : List Bool) (here : crash disk) (stored : disk.journals[id]? = some journal)
  (version : journal.schemaVersion = workspaceCleanupJournalSchemaVersion)

include here stored version

theorem recover_read (goes : ∀ faults, SafeAccess crash
      (if env.normalizePathForMatch journal.codexHome ≠ env.normalizePathForMatch codexHome ∨ journal.terminal = true then return
        else rollbackWorkspaceCleanup env journal) (comesTo faults good blocked) ⟨disk, faults⟩) :
    SafeAccess crash (recoverCleanup env codexHome id) (comesTo faults good blocked) ⟨disk, faults⟩ := by
  apply comes_then _ _ (fun read after => read = journal ∧ after = disk)
  · refine comes_inspect _ _ _ disk faults here (fun value read => ?_) fun error refused => ?_
    · exact ⟨Option.some.inj (((found_ok _ _ _).mp read).symm.trans stored), rfl⟩
    · rw [stored] at refused
      cases refused
  · intro read after faults here found
    obtain ⟨rfl, rfl⟩ := found
    apply comes_check _ _ _ _ _ _ here
    · exact fun _ _ => goes faults
    · intro error refused
      rw [version, ensure, if_pos rfl] at refused
      cases refused

theorem recover_idle (idle : ¬Open env codexHome journal) :
    SafeAccess crash (recoverCleanup env codexHome id) (comesTo faults (fun _ after => after = disk) blocked) ⟨disk, faults⟩ := by
  have settled : env.normalizePathForMatch journal.codexHome ≠ env.normalizePathForMatch codexHome ∨ journal.terminal = true := by
    by_cases ours : env.normalizePathForMatch journal.codexHome = env.normalizePathForMatch codexHome
    · exact .inr (Bool.not_eq_false _ ▸ fun unfinished => idle ⟨ours, unfinished⟩)
    · exact .inl ours
  apply recover_read id journal _ _ disk faults here stored version
  intro faults
  rw [if_pos settled]
  exact comes_done () _ _ disk faults here rfl

theorem recover_unfinished (unfinished : Open env codexHome journal)
    (rolls : ∀ faults, SafeAccess crash (rollbackWorkspaceCleanup env journal) (comesTo faults good blocked) ⟨disk, faults⟩) :
    SafeAccess crash (recoverCleanup env codexHome id) (comesTo faults good blocked) ⟨disk, faults⟩ := by
  have busy : ¬(env.normalizePathForMatch journal.codexHome ≠ env.normalizePathForMatch codexHome ∨ journal.terminal = true) := by
    intro settled
    obtain ⟨ours, open_⟩ := unfinished
    rw [open_] at settled
    exact settled.elim (fun other => other ours) nofun
  apply recover_read id journal _ _ disk faults here stored version
  intro faults
  rw [if_neg busy]
  exact rolls faults

end One

theorem listed_present (disk : CleanupDisk) (id : Uuid) : id ∈ disk.journals.keys ↔ ∃ journal, disk.journals[id]? = some journal := by
  rw [Std.ExtTreeMap.mem_keys, Std.ExtTreeMap.mem_iff_isSome_getElem?, Option.isSome_iff_exists]

theorem recover_each {crash : CleanupDisk → Prop} (blocked : Prop) (inv : List Uuid → CleanupDisk → Prop) (disk : CleanupDisk)
    (faults : List Bool) (starts : inv disk.journals.keys disk) (kept : ∀ rest state, inv rest state → crash state)
    (step : ∀ id rest state faults, inv (id :: rest) state →
      SafeAccess crash (recoverCleanup env codexHome id) (comesTo faults (fun _ => inv rest) blocked) ⟨state, faults⟩) :
    SafeAccess crash (recoverIncompleteWorkspaceCleanups env codexHome)
      (comesTo faults (fun _ => inv []) blocked) ⟨disk, faults⟩ := by
  have here := kept _ disk starts
  apply comes_then _ _ (fun listed after => listed = disk.journals.keys ∧ after = disk)
  · refine comes_inspect _ _ _ disk faults here (fun value read => ?_) fun _ => nofun
    cases read
    exact ⟨rfl, rfl⟩
  · intro listed after faults _ read
    obtain ⟨rfl, rfl⟩ := read
    exact comes_for_each _ inv blocked step (kept []) _ after faults starts

theorem recover_settled {crash : CleanupDisk → Prop} (blocked : Prop) (disk : CleanupDisk) (faults : List Bool) (here : crash disk)
    (settled : Settled env codexHome disk) :
    SafeAccess crash (recoverIncompleteWorkspaceCleanups env codexHome) (comesTo faults (fun _ after => after = disk) blocked)
      ⟨disk, faults⟩ := by
  refine comes_mono _ _ _ _ _ _ _ (fun _ after _ ends => ends.1) id
    (recover_each blocked (fun rest state => state = disk ∧ ∀ id ∈ rest, id ∈ disk.journals.keys) disk faults ⟨rfl, fun _ => id⟩
      (fun rest state ends => ends.1 ▸ here) fun id rest state faults starts => ?_)
  obtain ⟨rfl, listed⟩ := starts
  obtain ⟨journal, stored⟩ := (listed_present state id).mp (listed id List.mem_cons_self)
  obtain ⟨version, idle⟩ := settled id journal stored
  refine comes_mono _ _ _ _ _ _ _ (fun _ after _ same => ?_) (fun reason => reason)
    (recover_idle id journal blocked state faults here stored version idle)
  exact ⟨same, fun other inside => listed other (List.mem_cons_of_mem _ inside)⟩

variable {base : CleanupDisk} {input : CleanupInput} {plan : CleanupPlan}

-- The one cleanup that is under way has its journal among those that are listed,
-- or it is rolled back by now.
structure Recovering (env : CleanupEnv) (base : CleanupDisk) (input : CleanupInput) (plan : CleanupPlan) (disk : CleanupDisk)
    (journal : WorkspaceCleanupJournal) (rest : List Uuid) (state : CleanupDisk) : Prop where
  kept : Kept env base input plan state
  present : ∀ id ∈ rest, ∃ journal, state.journals[id]? = some journal
  course : state = disk ∧ input.operationId ∈ rest ∨ Settled env input.codexHome state ∧ Undone base disk journal state

theorem settled_kept (settled : Settled env input.codexHome base) (disk : CleanupDisk) (kept : Kept env base input plan disk)
    (closed : ∀ journal, disk.journals[input.operationId]? = some journal → ¬Open env input.codexHome journal) :
    Settled env input.codexHome disk := by
  intro id journal stored
  by_cases mine : id = input.operationId
  · obtain ⟨status, error, same⟩ := kept.own journal (mine ▸ stored)
    exact ⟨same ▸ rfl, closed journal (mine ▸ stored)⟩
  · exact settled id journal ((kept.journals id mine).symm.trans stored)

theorem recover_open (new : NewCleanup input.operationId base) (planned : Planned env base input plan)
    (settled : Settled env input.codexHome base) (journal : WorkspaceCleanupJournal) (disk : CleanupDisk) (faults : List Bool)
    (stored : disk.journals[input.operationId]? = some journal) (unfinished : Open env input.codexHome journal)
    (kept : Kept env base input plan disk) :
    SafeAccess (Kept env base input plan) (recoverIncompleteWorkspaceCleanups env input.codexHome)
      (comesTo faults (fun _ after => Settled env input.codexHome after ∧ Undone base disk journal after) (Stuck disk journal))
      ⟨disk, faults⟩ := by
  have version : journal.schemaVersion = workspaceCleanupJournalSchemaVersion := by
    obtain ⟨status, error, rfl⟩ := kept.own journal stored
    rfl
  have working : Working env base input plan disk := by
    refine ⟨kept.toFrame, fun other found rolled => ?_⟩
    cases stored.symm.trans found
    have terminal := unfinished.2
    rw [WorkspaceCleanupJournal.terminal, rolled] at terminal
    cases terminal
  have own := kept.own journal stored
  refine comes_mono _ _ _ _ _ _ _ (fun _ after _ ends => ?_) id
    (recover_each (Stuck disk journal) (Recovering env base input plan disk journal) disk faults ?_ (fun rest state ends => ends.kept)
      fun id rest state faults starts => ?_)
  · exact ends.course.resolve_left fun coming => nomatch coming.2
  · exact ⟨kept, fun id => (listed_present disk id).mp, .inl ⟨rfl, (listed_present disk _).mpr ⟨journal, stored⟩⟩⟩
  · obtain ⟨read, there⟩ := starts.present id List.mem_cons_self
    have later : ∀ other ∈ rest, ∃ journal, state.journals[other]? = some journal :=
      fun other inside => starts.present other (List.mem_cons_of_mem _ inside)
    by_cases mine : state = disk ∧ id = input.operationId
    · obtain ⟨rfl, rfl⟩ := mine
      apply recover_unfinished _ journal _ _ state faults kept stored version unfinished
      intro faults
      refine comes_mono _ _ _ _ _ _ _ (fun _ after left undone => ?_) (fun reason => reason)
        (rollback_safe new planned journal own state faults working)
      have rolled : after.journals[input.operationId]? = some { journal with status := .rolledBack } := by
        rw [← own_id journal own]
        exact undone.stored
      refine ⟨left, fun other inside => ?_, .inr ⟨settled_kept settled after left fun other found opened => ?_, undone⟩⟩
      · by_cases here : other = input.operationId
        · exact ⟨_, here ▸ rolled⟩
        · rw [left.journals other here, ← kept.journals other here]
          exact later other inside
      · cases rolled.symm.trans found
        exact nomatch opened.2
    · have settles : read.schemaVersion = workspaceCleanupJournalSchemaVersion ∧ ¬Open env input.codexHome read := by
        cases starts.course with
        | inr settled => exact settled.1 id read there
        | inl coming =>
            obtain ⟨rfl, _⟩ := coming
            have other : id ≠ input.operationId := fun same => mine ⟨rfl, same⟩
            exact settled id read ((kept.journals id other).symm.trans there)
      refine comes_mono _ _ _ _ _ _ _ (fun _ after left same => ?_) (fun reason => reason)
        (recover_idle id read _ state faults starts.kept there settles.1 settles.2)
      subst same
      refine ⟨left, later, starts.course.imp_left fun coming => ⟨coming.1, ?_⟩⟩
      exact (List.mem_cons.mp coming.2).resolve_left fun same => mine ⟨coming.1, same.symm⟩

end Recovery

section History

variable (env : CleanupEnv) (codexHome : String)

-- Each cleanup is cut off anywhere, or ends, while accesses may be refused: in the
-- recovery that it begins with, or after it, and then the disk it began on is the one that
-- the recovery left.
inductive History : CleanupDisk → CleanupDisk → Prop where
  | begins (disk : CleanupDisk) (settled : Settled env codexHome disk) : History disk disk
  | recovers (base disk : CleanupDisk) (faults : List Bool) (seen : Faulty CleanupDisk) (before : History base disk)
      (cut : (recoverIncompleteWorkspaceCleanups env codexHome).Cut ⟨disk, faults⟩ seen) : History base seen.state
  | cleans (base disk : CleanupDisk) (faults : List Bool) (mid seen : Faulty CleanupDisk) (input : CleanupInput)
      (before : History base disk)
      (home : input.codexHome = codexHome)
      (recovered : (recoverIncompleteWorkspaceCleanups env codexHome).exec ⟨disk, faults⟩ = (.ok (), mid))
      (new : NewCleanup input.operationId mid.state) (cut : (quarantineEmptyDirectories env input).Cut ⟨disk, faults⟩ seen)
      (later : ¬ (recoverIncompleteWorkspaceCleanups env codexHome).Cut ⟨disk, faults⟩ seen) : History mid.state seen.state

inductive Tracked (base disk : CleanupDisk) : Prop where
  | idle (same : disk = base)
  | during (input : CleanupInput) (plan : CleanupPlan) (home : input.codexHome = codexHome) (new : NewCleanup input.operationId base)
      (planned : Planned env base input plan) (kept : Kept env base input plan disk)

-- A cleanup that is not recorded has changed nothing.
def Recorded (base disk : CleanupDisk) : Prop := AsBefore base disk ∨
  ∃ (id : Uuid) (journal : WorkspaceCleanupJournal), base.journals[id]? = none ∧ disk.journals[id]? = some journal

-- The cleanup is completed, or all is as before it.
def Ended (base after : CleanupDisk) : Prop := AsBefore base after ∨
  ∃ (id : Uuid) (journal : WorkspaceCleanupJournal), base.journals[id]? = none ∧ after.journals[id]? = some journal ∧
    journal.status = .completed

-- Undisturbed, the recovery succeeds.
def Recovers (base disk : CleanupDisk) : Prop :=
  ∃ after, (recoverIncompleteWorkspaceCleanups env codexHome).exec ⟨disk, []⟩ = (.ok (), ⟨after, []⟩) ∧
    Settled env codexHome after ∧ Ended base after

-- The cleanup's journal is there unless there is nothing to undo; the backup that an
-- open journal names is there, and no directory of one is at both of its places.
structure Recoverable (base disk : CleanupDisk) : Prop where
  recorded : Recorded base disk
  free : ∀ (id : Uuid) (journal : WorkspaceCleanupJournal), disk.journals[id]? = some journal → Open env codexHome journal →
    (∀ backup, journal.globalStateBackup = some backup → disk.backups backup ≠ none) ∧
      ∀ planned ∈ journal.plannedQuarantines,
        disk.directories planned.quarantinePath = none ∨ disk.directories planned.originalPath = none

variable {env codexHome}

theorem stuck_free (disk : CleanupDisk) (journal : WorkspaceCleanupJournal) : ¬Stuck disk journal ↔
    (∀ backup, journal.globalStateBackup = some backup → disk.backups backup ≠ none) ∧
      ∀ planned ∈ journal.plannedQuarantines,
        disk.directories planned.quarantinePath = none ∨ disk.directories planned.originalPath = none := by
  rw [Stuck, not_or]
  simp only [Unsaved, Doubled, not_exists, not_and, Option.isSome_iff_ne_none, ne_eq, not_not, or_iff_not_imp_left]

section Own

variable {base disk : CleanupDisk} {input : CleanupInput} {plan : CleanupPlan} (kept : Kept env base input plan disk)

include kept

-- The other journals are those that were there before.
theorem recorded_own (closed : Settled env input.codexHome disk) :
    Ended base disk ↔ Recorded base disk := by
  refine ⟨fun ended => ended.imp_right fun ⟨id, journal, unwritten, stored, _⟩ =>
    ⟨id, journal, unwritten, stored⟩, fun recorded => ?_⟩
  refine recorded.elim .inl fun ⟨id, journal, unwritten, stored⟩ => ?_
  have mine : id = input.operationId := by
    by_contra other
    rw [kept.journals id other, unwritten] at stored
    cases stored
  subst mine
  have terminal : journal.terminal = true := by
    obtain ⟨status, error, same⟩ := kept.own journal stored
    have idle := (closed _ journal stored).2
    rw [Open, same, not_and] at idle
    exact same ▸ Bool.not_eq_false _ ▸ idle rfl
  simp only [WorkspaceCleanupJournal.terminal, Bool.or_eq_true, decide_eq_true_eq] at terminal
  cases terminal with
  | inl completed => exact .inr ⟨_, journal, unwritten, stored, completed⟩
  | inr rolled => exact .inl (kept.undone journal stored rolled)

theorem open_own (settled : Settled env input.codexHome base) (id : Uuid) (journal : WorkspaceCleanupJournal)
    (stored : disk.journals[id]? = some journal) (opened : Open env input.codexHome journal) : id = input.operationId := by
  by_contra other
  exact (settled id journal ((kept.journals id other).symm.trans stored)).2 opened

end Own

section Tracked

variable {base disk : CleanupDisk} (settled : Settled env codexHome base)

include settled

theorem recover_tracked (tracked : Tracked env codexHome base disk) (faults : List Bool) :
    SafeAccess (Tracked env codexHome base) (recoverIncompleteWorkspaceCleanups env codexHome)
      (comesTo faults (fun _ after => Settled env codexHome after ∧ ¬Jammed env codexHome disk ∧
        (Ended base after ↔ Recorded base disk))
        (Jammed env codexHome disk)) ⟨disk, faults⟩ := by
  have calm : Settled env codexHome disk → (Ended base disk ↔ Recorded base disk) →
      SafeAccess (Tracked env codexHome base) (recoverIncompleteWorkspaceCleanups env codexHome)
        (comesTo faults (fun _ after => Settled env codexHome after ∧ ¬Jammed env codexHome disk ∧
          (Ended base after ↔ Recorded base disk))
          (Jammed env codexHome disk)) ⟨disk, faults⟩ := by
    intro idle same
    refine comes_mono _ _ _ _ _ _ _ (fun _ after _ still => ?_) (fun reason => reason)
      (recover_settled (Jammed env codexHome disk) disk faults tracked idle)
    subst still
    refine ⟨idle, fun jammed => ?_, same⟩
    obtain ⟨id, journal, stored, opened, _⟩ := jammed
    exact (idle id journal stored).2 opened
  cases tracked with
  | idle same =>
      subst same
      exact calm settled (iff_of_true (.inl ⟨rfl, rfl⟩) (.inl ⟨rfl, rfl⟩))
  | during input plan home new planned kept =>
      subst home
      by_cases busy : ∃ journal, disk.journals[input.operationId]? = some journal ∧ Open env input.codexHome journal
      · obtain ⟨journal, stored, opened⟩ := busy
        have only : Jammed env input.codexHome disk ↔ Stuck disk journal := by
          refine ⟨fun jammed => ?_, fun stuck => ⟨_, journal, stored, opened, stuck⟩⟩
          obtain ⟨id, other, found, unfinished, stuck⟩ := jammed
          cases open_own kept settled id other found unfinished
          cases stored.symm.trans found
          exact stuck
        apply safe_weaken _ _ fun state left => Tracked.during input plan rfl new planned left
        refine comes_mono _ _ _ _ _ _ _ (fun _ after _ ended => ?_) only.mpr
          (recover_open new planned settled journal disk faults stored opened kept)
        obtain ⟨closed, undone⟩ := ended
        exact ⟨closed, fun jammed => undone.free (only.mp jammed),
          iff_of_true (.inl undone.before) (.inr ⟨_, journal, new.unwritten, stored⟩)⟩
      · have closed := settled_kept settled disk kept fun journal stored opened => busy ⟨journal, stored, opened⟩
        exact calm closed (recorded_own kept closed)

end Tracked

section Quarantine

variable {input : CleanupInput} {start mid seen : Faulty CleanupDisk}
  (recovered : (recoverIncompleteWorkspaceCleanups env input.codexHome).exec start = (.ok (), mid))

include recovered

theorem quarantine_cut (asked : input.requestedPaths ≠ []) (few : input.requestedPaths.length ≤ maxMappings)
    (cut : (cleanUp env input).Cut mid seen) : (quarantineEmptyDirectories env input).Cut start seen := by
  have checked : ∀ (condition : Prop) [Decidable condition] (message : String), condition →
      (Prog.ofExcept (σ := Faulty CleanupDisk) (ensure condition message)).exec start = (.ok (), start) := by
    intro condition _ message holds
    rw [Prog.exec_of_except, ensure, if_pos holds]
  exact Prog.cut_later _ _ _ _ _ () (checked _ _ asked) (Prog.cut_later _ _ _ _ _ () (checked _ _ few)
    (Prog.cut_later _ _ _ _ _ () recovered cut))

theorem cut_after_recovery (cut : (quarantineEmptyDirectories env input).Cut start seen)
    (later : ¬ (recoverIncompleteWorkspaceCleanups env input.codexHome).Cut start seen) : (cleanUp env input).Cut mid seen := by
  have begun : seen ≠ start := fun same => later (same ▸ Prog.cut_begins _ _)
  rcases Prog.cut_bind _ _ _ _ cut with early | ⟨_, _, ran, cut⟩
  · exact absurd (Prog.cut_of_except _ _ _ early) begun
  obtain ⟨_, rfl⟩ := Prod.mk.inj ((Prog.exec_of_except _ _).symm.trans ran)
  rcases Prog.cut_bind _ _ _ _ cut with early | ⟨_, _, ran, cut⟩
  · exact absurd (Prog.cut_of_except _ _ _ early) begun
  obtain ⟨_, rfl⟩ := Prod.mk.inj ((Prog.exec_of_except _ _).symm.trans ran)
  rcases Prog.cut_bind _ _ _ _ cut with early | ⟨_, _, ran, cut⟩
  · exact absurd early later
  cases recovered.symm.trans ran
  exact cut

end Quarantine

variable (tells : TellsApart env)

include tells

theorem history_tracked (base disk : CleanupDisk) (history : History env codexHome base disk) :
    Settled env codexHome base ∧ Tracked env codexHome base disk := by
  induction history with
  | begins disk settled => exact ⟨settled, .idle rfl⟩
  | recovers base disk faults seen _ cut ih =>
      obtain ⟨settled, tracked⟩ := ih
      exact ⟨settled, ((Prog.safe_iff _ _ _).mp (recover_tracked settled tracked faults)).1 seen cut⟩
  | cleans base disk faults mid seen input _ home recovered new cut later ih =>
      obtain ⟨settled, tracked⟩ := ih
      subst home
      have cut := cut_after_recovery recovered cut later
      have ended := ((Prog.safe_iff _ _ _).mp (recover_tracked settled tracked faults)).2
      rw [recovered] at ended
      obtain ⟨state, rest⟩ := mid
      refine ⟨ended.1.1, ?_⟩
      cases ((Prog.safe_iff _ _ _).mp (clean_up_safe tells new rest)).1 seen cut with
      | inl same => exact .idle same
      | inr kept =>
          obtain ⟨plan, planned, kept⟩ := kept
          exact .during input plan rfl new planned kept

theorem recovery_settles (base disk : CleanupDisk) (history : History env codexHome base disk) :
    Recovers env codexHome base disk ↔ Recoverable env codexHome base disk := by
  obtain ⟨settled, tracked⟩ := history_tracked tells base disk history
  have ends := ((Prog.safe_iff _ _ _).mp (recover_tracked settled tracked [])).2
  constructor
  · intro recovers
    obtain ⟨after, ran, closed, ended⟩ := recovers
    rw [ran] at ends
    obtain ⟨_, free, same⟩ := ends.1
    exact ⟨same.mp ended, fun id journal stored opened => (stuck_free disk journal).mp fun stuck =>
      free ⟨id, journal, stored, opened, stuck⟩⟩
  · intro recoverable
    have free : ¬Jammed env codexHome disk := by
      rintro ⟨id, journal, stored, opened, stuck⟩
      exact (stuck_free disk journal).mpr (recoverable.free id journal stored opened) stuck
    cases outcome : (recoverIncompleteWorkspaceCleanups env codexHome).exec ⟨disk, []⟩ with
    | mk result seen =>
        rw [outcome] at ends
        cases result with
        | error error => exact absurd (ends rfl) free
        | ok value =>
            obtain ⟨after, rest⟩ := seen
            obtain ⟨⟨closed, _, same⟩, quiet⟩ := ends
            cases quiet rfl
            exact ⟨after, outcome, closed, same.mpr recoverable.recorded⟩

end History

section Interrupted

variable (env : CleanupEnv) (input : CleanupInput) (base : CleanupDisk) (plan : CleanupPlan)
  (ran : planCleanup env input base = .ok plan)

theorem journal_written : (writeWorkspaceCleanupJournal (newJournal env input plan)).exec ⟨base, []⟩ =
    (.ok (), ⟨base.setJournal (newJournal env input plan), []⟩) := quiet_write_journal (newJournal env input plan) base

include ran

theorem planning_reads : (inspect (planCleanup env input)).exec ⟨base, []⟩ = (.ok plan, ⟨base, []⟩) := by rw [quiet_inspect, ran]

theorem cut_after_journal : (cleanUp env input).Cut ⟨base, []⟩ ⟨base.setJournal (newJournal env input plan), []⟩ := by
  have cut := Prog.cut_exec (writeWorkspaceCleanupJournal (newJournal env input plan)) ⟨base, []⟩
  rw [journal_written] at cut
  exact Prog.cut_later _ _ _ _ _ plan (planning_reads env input base plan ran) (Prog.cut_first _ _ _ _ cut)

-- Stopped when all is done but the last journal.
theorem cut_after_moves : (cleanUp env input).Cut ⟨base, []⟩
    ((applyCleanup env input plan).exec ⟨base.setJournal (newJournal env input plan), []⟩).2 :=
  Prog.cut_later _ _ _ _ _ plan (planning_reads env input base plan ran)
    (Prog.cut_later _ _ _ _ _ () (journal_written env input base plan)
    (Prog.cut_first _ _ _ _ (Prog.cut_attempt _ _ _ (Prog.cut_exec _ _))))

-- A cleanup that stops once it has changed something.
theorem interrupted_history (settled : Settled env input.codexHome base) (new : NewCleanup input.operationId base)
    (asked : input.requestedPaths ≠ []) (few : input.requestedPaths.length ≤ maxMappings) (seen : Faulty CleanupDisk)
    (cut : (cleanUp env input).Cut ⟨base, []⟩ seen) (changed : seen.state ≠ base) : History env input.codexHome base seen.state := by
  have safe : SafeAccess (fun state => state = base) (recoverIncompleteWorkspaceCleanups env input.codexHome)
    (comesTo [] (fun _ after => after = base) False) ⟨base, []⟩ := recover_settled False base [] rfl settled
  have idle := (Prog.safe_iff _ _ _).mp safe
  have recovered : (recoverIncompleteWorkspaceCleanups env input.codexHome).exec ⟨base, []⟩ = (.ok (), ⟨base, []⟩) := by
    have ends := idle.2
    cases outcome : (recoverIncompleteWorkspaceCleanups env input.codexHome).exec ⟨base, []⟩ with
    | mk result seen =>
        rw [outcome] at ends
        cases result with
        | error error => exact (ends rfl).elim
        | ok value =>
            obtain ⟨after, rest⟩ := seen
            obtain ⟨same, quiet⟩ := ends
            cases quiet rfl
            cases same
            rfl
  exact .cleans base base [] ⟨base, []⟩ seen input (.begins base settled) rfl recovered new
    (quarantine_cut recovered asked few cut) fun early => changed (idle.1 seen early)

end Interrupted

namespace CleanupSample

def env : CleanupEnv where
  lib := sampleLib
  normalizePathForMatch path := path
  fileName _ := "project"
  display _ := "/project"
  cleanupReport _ := .ok [⟨"/project", .empty, true⟩]
  parseGlobalState _ := .ok ()
  removeCodexProjectPaths _ bytes := if bytes = [1] then .ok ⟨some [2], 1, 0⟩ else .ok ⟨none, 0, 0⟩
  crossesDevices _ _ := false

def input : CleanupInput := ⟨"/codex", ["/project"], 7⟩

-- One empty workspace, and a global state that may name it.
def disk (state : Option Bytes) : CleanupDisk where
  directories place := if place = .workspace "/project" then some emptyDirectory else none
  globalStates path := if path = globalStatePath "/codex" then state else none
  backups _ := none
  journals := ∅

def plan (state updated : Option Bytes) (removed : Nat) : CleanupPlan where
  selected := [⟨"/project", .empty, true⟩]
  plannedQuarantines := [⟨.workspace "/project", .quarantine 7 0 "project"⟩]
  globalState := state
  updatedState := updated
  removedCodexProjects := removed
  removedThreadAssignments := 0

theorem tells : TellsApart env := by
  intro identities bytes removed updated ran new same
  have digests : digestBytes sampleLib [1] ≠ digestBytes sampleLib [2] := by decide +kernel
  by_cases named : bytes = [1]
  · simp only [env, if_pos named, Except.ok.injEq] at ran
    subst ran named
    cases new
    exact absurd same digests
  · simp only [env, if_neg named, Except.ok.injEq] at ran
    subst ran
    cases new

theorem settled (state : Option Bytes) : Settled env "/codex" (disk state) := by
  intro id journal stored
  rw [disk, Std.ExtTreeMap.getElem?_empty] at stored
  cases stored

theorem new_cleanup (state : Option Bytes) : NewCleanup 7 (disk state) :=
  by
  refine ⟨Std.ExtTreeMap.getElem?_empty, rfl, fun index name => ?_⟩
  simp only [disk, reduceCtorEq, if_false]

theorem planned (state : Option Bytes) (updated : Option Bytes) (removed : Nat)
    (removal : planGlobalState env ["/project"] state = .ok ⟨updated, removed, 0⟩) :
    planCleanup env input (disk state) = .ok (plan state updated removed) := by
  have selected : selectEntries env [⟨"/project", .empty, true⟩] ["/project"] [] = .ok [⟨"/project", .empty, true⟩] := by
    decide +kernel
  have live : (disk state).globalStates (globalStatePath input.codexHome) = state := by simp only [disk, input, if_true]
  have report : env.cleanupReport (disk state) = .ok [⟨"/project", .empty, true⟩] := rfl
  simp only [planCleanup, bind_ok, ensure_ok, pure_ok]
  refine ⟨_, report, _, selected, ⟨updated, removed, 0⟩, ?_, (), .inl ?_, ?_⟩
  · rw [live]
    exact removal
  · exact List.cons_ne_nil _ _
  · rw [live]
    rfl

def interrupted (state updated : Option Bytes) (removed : Nat) : CleanupDisk :=
  (disk state).setJournal (newJournal env input (plan state updated removed))

theorem interrupted_journal (state updated : Option Bytes) (removed : Nat) :
    (interrupted state updated removed).journals[input.operationId]? = some (newJournal env input (plan state updated removed)) :=
  (Keyed.lookup_insert _ _ _ _).trans (if_pos rfl)

theorem interrupted_reached (state updated : Option Bytes) (removed : Nat)
    (removal : planGlobalState env ["/project"] state = .ok ⟨updated, removed, 0⟩) (seen : Faulty CleanupDisk)
    (cut : (cleanUp env input).Cut ⟨disk state, []⟩ seen) (begun : seen.state.journals[input.operationId]? ≠ none) :
    History env "/codex" (disk state) seen.state :=
  interrupted_history env input (disk state) _ (planned state updated removed removal) (settled state) (new_cleanup state) (by decide)
    (by decide) seen cut fun same => begun (same ▸ Std.ExtTreeMap.getElem?_empty)

theorem stopped_at_journal (state updated : Option Bytes) (removed : Nat)
    (removal : planGlobalState env ["/project"] state = .ok ⟨updated, removed, 0⟩) :
    History env "/codex" (disk state) (interrupted state updated removed) :=
  interrupted_reached state updated removed removal _
    (cut_after_journal env input (disk state) _ (planned state updated removed removal)) fun absent =>
      Option.some_ne_none _ ((interrupted_journal state updated removed).symm.trans absent)

theorem removal_planned : planGlobalState env ["/project"] (some [1]) = .ok ⟨some [2], 1, 0⟩ := rfl

-- The state file is backed up and replaced, and the directory is in the quarantine.
def moved : Faulty CleanupDisk :=
  ((applyCleanup env input (plan (some [1]) (some [2]) 1)).exec ⟨interrupted (some [1]) (some [2]) 1, []⟩).2

def movedJournal : WorkspaceCleanupJournal :=
  { newJournal env input (plan (some [1]) (some [2]) 1) with status := .projectStateUpdated }

theorem moved_state : moved.state.globalStates (globalStatePath "/codex") = some [2] ∧ moved.state.backups 7 = some [1] ∧
    moved.state.directories (.workspace "/project") = none ∧
    moved.state.directories (.quarantine 7 0 "project") = some emptyDirectory := by decide +kernel

theorem moved_journals : moved.state.journals.toList = [(7, movedJournal)] := by decide +kernel

theorem moved_stored (id : Uuid) (journal : WorkspaceCleanupJournal) :
    moved.state.journals[id]? = some journal ↔ id = 7 ∧ journal = movedJournal := by
  rw [← Std.ExtTreeMap.mem_toList_iff_getElem?_eq_some, moved_journals, List.mem_singleton, Prod.mk.injEq]

theorem stopped_after_moves : ∃ after, History env "/codex" (disk (some [1])) after ∧
    (∀ (id : Uuid) (journal : WorkspaceCleanupJournal), after.journals[id]? = some journal ↔ id = 7 ∧ journal = movedJournal) ∧
    after.globalStates (globalStatePath "/codex") = some [2] ∧ after.backups 7 = some [1] ∧
    after.directories (.workspace "/project") = none ∧ after.directories (.quarantine 7 0 "project") = some emptyDirectory :=
  ⟨moved.state, interrupted_reached (some [1]) (some [2]) 1 removal_planned moved
    (cut_after_moves env input (disk (some [1])) _ (planned (some [1]) (some [2]) 1 removal_planned)) fun absent =>
      Option.some_ne_none _ (((moved_stored 7 movedJournal).mpr ⟨rfl, rfl⟩).symm.trans absent), moved_stored, moved_state⟩

end CleanupSample

-- Stopped before the state file is backed up, the recovery looks for a backup that is not there.
theorem preparing_cleanup_blocked : ¬∀ (env : CleanupEnv) (codexHome : String) (base disk : CleanupDisk), TellsApart env →
    History env codexHome base disk → Recovers env codexHome base disk := by
  intro claim
  have history := CleanupSample.stopped_at_journal (some [1]) (some [2]) 1 CleanupSample.removal_planned
  obtain ⟨after, ran, _⟩ := claim CleanupSample.env "/codex" _ _ CleanupSample.tells history
  have tracked := (history_tracked CleanupSample.tells _ _ history).2
  have ends := ((Prog.safe_iff _ _ _).mp (recover_tracked (CleanupSample.settled _) tracked [])).2
  rw [ran] at ends
  exact ends.1.2.1 ⟨_, _, CleanupSample.interrupted_journal (some [1]) (some [2]) 1, ⟨rfl, rfl⟩, .inl ⟨_, rfl, rfl⟩⟩

-- Stopped after the moves, the recovery finds the backup and puts the directory back.
open CleanupSample in
theorem interrupted_cleanup_recovers : ∃ after, after.backups 7 = some [1] ∧ after.directories (.workspace "/project") = none ∧
    Recovers env "/codex" (disk (some [1])) after := by
  obtain ⟨after, history, journals, _, backup, gone, _⟩ := stopped_after_moves
  have stored := (journals 7 movedJournal).mpr ⟨rfl, rfl⟩
  refine ⟨after, backup, gone, (recovery_settles tells _ _ history).mpr
    ⟨.inr ⟨7, movedJournal, Std.ExtTreeMap.getElem?_empty, stored⟩, ?_⟩⟩
  intro id journal listed _
  obtain ⟨_, rfl⟩ := (journals id journal).mp listed
  refine ⟨fun kept named => ?_, fun planned member => .inr ?_⟩
  · cases named
    exact fun absent => Option.some_ne_none _ (backup.symm.trans absent)
  · have only : planned = ⟨.workspace "/project", .quarantine 7 0 "project"⟩ := List.mem_singleton.mp member
    rw [only]
    exact gone

end SessionSync.Workspace
