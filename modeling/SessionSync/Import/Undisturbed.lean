import SessionSync.Import.Rollouts

set_option autoImplicit false

namespace SessionSync.Import

open SessionSync.Core Checked Local Storage Checkout Rollout

variable {δ : Type} (env : ImportEnv δ)

-- A state of the device with another home and the same backups and journals.
def ImportDisk.onto (state : ImportDisk δ) (disk : Disk δ) : ImportDisk δ := { state with disk := disk }

@[simp] theorem onto_disk (state : ImportDisk δ) (disk : Disk δ) : (state.onto disk).disk = disk := rfl

@[simp] theorem onto_store (state : ImportDisk δ) (disk : Disk δ) : (state.onto disk).store = state.store := rfl

theorem quiet_on_disk (run : Disk δ → Except String (Disk δ)) (state : ImportDisk δ) :
    (onDisk run).exec ⟨state, []⟩ =
    ((run state.disk).map fun _ => (), ⟨state.onto ((run state.disk).toOption.getD state.disk), []⟩) := by
  rw [onDisk, quiet_touch]
  cases run state.disk <;> rfl

theorem quiet_of_disk {α : Type} (look : Disk δ → Except String α) (state : ImportDisk δ) :
    (ofDisk look).exec ⟨state, []⟩ = (look state.disk, ⟨state, []⟩) := quiet_inspect _ state

theorem quiet_discard (path : RolloutPath) (state : ImportDisk δ) :
    (discardRollout path).exec ⟨state, []⟩ = (.ok (), ⟨state.onto (dropped path state.disk), []⟩) := by
  rw [discardRollout, Prog.exec_bind, Prog.exec_attempt, quiet_on_disk]
  rfl

theorem remove_ok (path : RolloutPath) (disk : Disk δ) (bytes : Bytes) (there : rolloutAt path disk = some bytes) :
    removeRollout path disk = .ok (setRollout path none disk) := by
  rw [removeRollout, there]
  rfl

theorem dropped_there (path : RolloutPath) (disk : Disk δ) (bytes : Bytes) (there : rolloutAt path disk = some bytes) :
    dropped path disk = setRollout path none disk := by
  rw [dropped, remove_ok path disk bytes there]
  rfl

theorem hash_there (path : RolloutPath) (disk : Disk δ) (bytes : Bytes) (there : rolloutAt path disk = some bytes) :
    (rolloutFile path disk).map (digestBytes env.lib) = .ok (digestBytes env.lib bytes) := by
  rw [rolloutFile, there]
  rfl

theorem hash_absent (path : RolloutPath) (disk : Disk δ) (absent : rolloutAt path disk = none) :
    (rolloutFile path disk).map (digestBytes env.lib) = .error "No such file or directory" := by
  rw [rolloutFile, absent]
  rfl

theorem target_absent (rollout : JournalRollout) (disk : Disk δ) (absent : rolloutAt rollout.targetPath disk = none) :
    clearTarget env.lib rollout disk = disk := by
  simp [clearTarget, absent]

theorem target_there (rollout : JournalRollout) (disk : Disk δ) (bytes : Bytes)
    (there : rolloutAt rollout.targetPath disk = some bytes) :
    clearTarget env.lib rollout disk =
      if digestBytes env.lib bytes = rollout.sha256 then setRollout rollout.targetPath none disk else disk := by
  simp [clearTarget, there, dropped_there _ _ bytes there]

theorem quiet_remove_matching (rollout : JournalRollout) (state : ImportDisk δ) :
    (removeMatching env rollout.targetPath rollout.sha256).exec ⟨state, []⟩ =
      (.ok (), ⟨state.onto (clearTarget env.lib rollout state.disk), []⟩) := by
  rw [removeMatching, Prog.exec_bind, Prog.exec_attempt, quiet_of_disk]
  cases there : rolloutAt rollout.targetPath state.disk with
  | none =>
      rw [hash_absent env _ _ there, target_absent env rollout _ there]
      rfl
  | some bytes =>
      rw [hash_there env _ _ bytes there, target_there env rollout _ bytes there]
      dsimp only
      by_cases same : digestBytes env.lib bytes = rollout.sha256
      · rw [if_pos same, if_pos same, quiet_on_disk, remove_ok _ _ bytes there]
        rfl
      · rw [if_neg same, if_neg same]
        rfl

theorem quiet_roll_back_thread (thread : PreparedThread) (state : ImportDisk δ) :
    (rollBackThread env thread).exec ⟨state, []⟩ = (.ok (), ⟨state.onto (clearRollout env.lib state.disk thread.planned), []⟩) := by
  rw [rollBackThread, Prog.exec_bind, quiet_discard]
  dsimp only
  rw [Prog.exec_bind, Prog.exec_attempt]
  have cleared := quiet_remove_matching env thread.planned (state.onto (dropped thread.temporaryPath state.disk))
  simp only [PreparedThread.planned] at cleared
  rw [cleared]
  rfl

theorem quiet_roll_back_threads (prepared : List PreparedThread) (state : ImportDisk δ) :
    (Prog.forEach prepared (rollBackThread env)).exec ⟨state, []⟩ =
      (.ok (), ⟨state.onto (clearRollouts env.lib (prepared.map PreparedThread.planned) state.disk), []⟩) := by
  induction prepared generalizing state with
  | nil => rfl
  | cons thread rest ih =>
      rw [Prog.forEach, Prog.exec_bind, quiet_roll_back_thread]
      exact ih _

def withDatabase (target : String) (database : δ) (disk : Disk δ) : Disk δ :=
  { disk with databases := disk.databases.insert target database }

theorem quiet_restore (operationId : Uuid) (target : String) (database : δ) (state : ImportDisk δ)
    (copy : state.store.copies operationId = some database) :
    (restoreDatabase operationId target).exec ⟨state, []⟩ =
      (.ok (), ⟨state.onto (withDatabase target database state.disk), []⟩) := by
  rw [restoreDatabase, quiet_touch, copy]
  rfl

theorem quiet_write_journal (journal : OperationJournal) (state : ImportDisk δ) :
    ∃ store, (writeJournal journal).exec ⟨state, []⟩ = (.ok (), ⟨⟨state.disk, store⟩, []⟩) ∧
      store.journals[journal.operationId]? = some journal := by
  rw [writeJournal, quiet_atomic]
  cases state.store.journals.contains journal.operationId with
  | true => exact ⟨_, rfl, by rw [Keyed.lookup_insert, if_pos rfl]⟩
  | false => exact ⟨_, rfl, by rw [Keyed.lookup_insert, if_pos rfl]⟩

-- The home after an undisturbed rollback.
def restored (planned : List JournalRollout) (target : String) (database : δ) (disk : Disk δ) : Disk δ :=
  withDatabase target database (clearRollouts env.lib planned disk)

theorem quiet_rollback (error : String) (prepared : List PreparedThread) (target : String) (journal : OperationJournal) (database : δ)
    (state : ImportDisk δ) (copy : state.store.copies journal.operationId = some database) :
    ∃ store, (rollbackAndFail env error prepared target journal).exec ⟨state, []⟩ =
      (.error error, ⟨⟨restored env (prepared.map PreparedThread.planned) target database state.disk, store⟩, []⟩) := by
  rw [rollbackAndFail, Prog.exec_bind, quiet_roll_back_threads]
  dsimp only
  rw [Prog.exec_bind, Prog.exec_attempt, quiet_restore _ _ database]
  · dsimp only
    rw [Prog.exec_bind, Prog.exec_attempt]
    obtain ⟨store, written, _⟩ := quiet_write_journal
      { journal with status := .rolledBack, error := some (failureText error (.ok ())) }
      ((state.onto (clearRollouts env.lib (prepared.map PreparedThread.planned) state.disk)).onto
        (restored env (prepared.map PreparedThread.planned) target database state.disk))
    simp only [onto_disk] at written ⊢
    refine ⟨store, ?_⟩
    rw [← restored, written]
    rfl
  · exact copy

theorem quiet_recover_rollout (rollout : JournalRollout) (state : ImportDisk δ) :
    ∃ preserved, (recoverRollout env rollout).exec ⟨state, []⟩ =
      (.ok preserved, ⟨state.onto (clearRollout env.lib state.disk rollout), []⟩) := by
  rw [recoverRollout, Prog.exec_bind, quiet_discard]
  dsimp only
  rw [Prog.exec_bind, quiet_probe, clearRollout]
  dsimp only
  have same : (state.onto (dropped rollout.temporaryPath state.disk)).disk = dropped rollout.temporaryPath state.disk := rfl
  rw [same]
  cases there : rolloutAt rollout.targetPath (dropped rollout.temporaryPath state.disk) with
  | none =>
      rw [target_absent env rollout _ there]
      exact ⟨[], rfl⟩
  | some bytes =>
      rw [target_there env rollout _ bytes there, Option.isSome_some, if_pos rfl, Prog.exec_bind, Prog.exec_attempt,
        quiet_of_disk, same, hash_there env _ _ bytes there]
      dsimp only
      by_cases matched : digestBytes env.lib bytes = rollout.sha256
      · have chosen : (Except.ok (digestBytes env.lib bytes) : Except String String).toOption = some rollout.sha256 :=
          congrArg some matched
        rw [if_pos matched, if_pos chosen, Prog.exec_bind, quiet_on_disk, same, remove_ok _ _ bytes there]
        exact ⟨[], rfl⟩
      · have other : (Except.ok (digestBytes env.lib bytes) : Except String String).toOption ≠ some rollout.sha256 :=
          fun equal => matched (Option.some.inj equal)
        rw [if_neg matched, if_neg other]
        exact ⟨[rollout.targetPath], rfl⟩

theorem quiet_recover_rollouts (planned : List JournalRollout) (state : ImportDisk δ) :
    ∃ preserved, (recoverRollouts env planned).exec ⟨state, []⟩ =
      (.ok preserved, ⟨state.onto (clearRollouts env.lib planned state.disk), []⟩) := by
  induction planned generalizing state with
  | nil => exact ⟨[], rfl⟩
  | cons rollout rest ih =>
      obtain ⟨preserved, first⟩ := quiet_recover_rollout env rollout state
      obtain ⟨others, later⟩ := ih (state.onto (clearRollout env.lib state.disk rollout))
      rw [recoverRollouts, Prog.exec_bind, first]
      dsimp only
      rw [Prog.exec_bind, later]
      exact ⟨preserved ++ others, rfl⟩

theorem quiet_recover (journal : OperationJournal) (manifest : BackupManifest) (database : δ) (state : ImportDisk δ)
    (listed : state.store.manifests journal.operationId = some manifest) (own : manifest.operationId = journal.operationId)
    (copy : state.store.copies journal.operationId = some database) :
    ∃ after store, (recoverBackedUp env journal).exec ⟨state, []⟩ =
        (.ok after, ⟨⟨restored env journal.plannedRollouts manifest.targetDatabase database state.disk, store⟩, []⟩) ∧
      after.status = .rolledBack ∧ store.journals[journal.operationId]? = some after := by
  obtain ⟨preserved, rounds⟩ := quiet_recover_rollouts env journal.plannedRollouts state
  rw [recoverBackedUp, Prog.exec_bind, quiet_inspect, listed]
  dsimp only [found]
  rw [Prog.exec_bind, Prog.exec_of_except, ensure, if_pos own]
  dsimp only
  rw [Prog.exec_bind, rounds]
  dsimp only
  rw [Prog.exec_bind, quiet_restore _ _ database (state.onto (clearRollouts env.lib journal.plannedRollouts state.disk)) copy]
  dsimp only
  obtain ⟨store, written, held⟩ := quiet_write_journal
    { journal with status := .rolledBack, error := some (preservedText preserved) }
    ((state.onto (clearRollouts env.lib journal.plannedRollouts state.disk)).onto
      (restored env journal.plannedRollouts manifest.targetDatabase database state.disk))
  refine ⟨_, store, ?_, ?_, held⟩
  · simp only [onto_disk] at written ⊢
    rw [Prog.exec_bind, ← restored, written]
    rfl
  · rfl

end SessionSync.Import
