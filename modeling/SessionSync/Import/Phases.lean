import SessionSync.Import.RollbackExact

set_option autoImplicit false

namespace SessionSync.Import

open SessionSync.Core Checked Local Storage Checkout Rollout

variable {δ : Type}

def Plans (operationId : Uuid) (planned : List JournalRollout) (store : ImportStore δ) : Prop :=
  ∀ stored, store.journals[operationId]? = some stored → stored.operationId = operationId ∧ stored.plannedRollouts = planned

-- Nothing was written to the home yet.
structure Early (start : Disk δ) (prepared : List PreparedThread) (operationId : Uuid) (state : ImportDisk δ) : Prop where
  home : state.disk = start
  unlisted : state.store.manifests operationId = none
  planned : Plans operationId (prepared.map PreparedThread.planned) state.store

-- From the backup on.
structure Backed (start : Disk δ) (prepared : List PreparedThread) (operationId : Uuid) (target : String)
    (state : ImportDisk δ) : Prop where
  installing : Installing start prepared target state.disk
  listed : state.store.manifests operationId = some ⟨operationId, target⟩
  copy : ∃ database, state.store.copies operationId = some database ∧ start.databases[target]? = some database
  planned : Plans operationId (prepared.map PreparedThread.planned) state.store

section Backed

variable {start : Disk δ} {prepared : List PreparedThread} {operationId : Uuid} {target : String}

theorem plans_write (journal : OperationJournal) (planned : List JournalRollout) (store : ImportStore δ)
    (own : journal.operationId = operationId) (same : journal.plannedRollouts = planned) (plans : Plans operationId planned store) :
    Plans operationId planned { store with journals := store.journals.insert journal.operationId journal } := by
  intro stored held
  rw [Keyed.lookup_insert] at held
  split at held
  · cases held
    exact ⟨own, same⟩
  · exact plans stored held

theorem plans_erase (other : Uuid) (planned : List JournalRollout) (store : ImportStore δ) (plans : Plans operationId planned store) :
    Plans operationId planned { store with journals := store.journals.erase other } := by
  intro stored held
  rw [Keyed.lookup_erase] at held
  split at held
  · cases held
  · exact plans stored held

theorem installing_set (path : RolloutPath) (bytes : Option Bytes) (disk : Disk δ) (own : Own prepared path)
    (installing : Installing start prepared target disk) : Installing start prepared target (setRollout path bytes disk) := by
  refine ⟨fun other outside => ?_, installing.databases⟩
  have differ : other ≠ path := fun same => outside (same ▸ own)
  rw [rollout_set, if_neg differ]
  exact installing.outside other outside

variable (start prepared operationId target) in
def KeepsBacked (state after : ImportDisk δ) : Prop :=
  Backed start prepared operationId target state → Backed start prepared operationId target after

theorem keeps_refl (state : ImportDisk δ) : KeepsBacked start prepared operationId target state state := id

theorem on_disk_moves (run : Disk δ → Except String (Disk δ))
    (fits : ∀ disk after, run disk = .ok after → Installing start prepared target disk → Installing start prepared target after) :
    Moves (KeepsBacked start prepared operationId target) (onDisk run) := by
  apply moves_touch keeps_refl
  intro state after ran backed
  obtain ⟨disk, outcome, same⟩ := (mapped_ok _ _ _).mp ran
  cases same
  exact ⟨fits _ _ outcome backed.installing, backed.listed, backed.copy, backed.planned⟩

theorem of_disk_moves {α : Type} (look : Disk δ → Except String α) :
    Moves (KeepsBacked start prepared operationId target) (ofDisk look) := moves_inspect keeps_refl _

theorem write_journal_moves (journal : OperationJournal) (own : journal.operationId = operationId)
    (same : journal.plannedRollouts = prepared.map PreparedThread.planned) :
    Moves (KeepsBacked start prepared operationId target) (writeJournal journal) := by
  apply moves_atomic keeps_refl
  · exact fun state backed => ⟨backed.installing, backed.listed, backed.copy, plans_erase _ _ _ backed.planned⟩
  · exact fun state backed => ⟨backed.installing, backed.listed, backed.copy, plans_write journal _ _ own same backed.planned⟩

theorem remove_moves (path : RolloutPath) (own : Own prepared path) :
    Moves (KeepsBacked start prepared operationId target) (onDisk (removeRollout path)) := by
  apply on_disk_moves
  intro disk after ran installing
  simp only [removeRollout, bind_ok, pure_ok] at ran
  obtain ⟨_, _, rfl⟩ := ran
  exact installing_set path none disk own installing

theorem discard_moves (path : RolloutPath) (own : Own prepared path) :
    Moves (KeepsBacked start prepared operationId target) (discardRollout path) :=
  Prog.acts_bind _ _ (Prog.acts_attempt _ (remove_moves path own)) fun _ => trivial

theorem write_new_moves (path : RolloutPath) (bytes : Disk δ → Except String Bytes) (own : Own prepared path) :
    Moves (KeepsBacked start prepared operationId target) (writeNew path bytes) := by
  apply Prog.acts_bind
  · apply on_disk_moves
    intro disk after ran installing
    simp only [createRollout, bind_ok, pure_ok] at ran
    obtain ⟨_, _, rfl⟩ := ran
    exact installing_set path _ disk own installing
  · intro _
    apply on_disk_moves
    intro disk after ran installing
    simp only [bind_ok, pure_ok] at ran
    obtain ⟨_, _, rfl⟩ := ran
    exact installing_set path _ disk own installing

theorem rename_moves (source destination : RolloutPath) (leaves : Own prepared source) (comes : Own prepared destination) :
    Moves (KeepsBacked start prepared operationId target) (onDisk (renameRollout source destination)) := by
  apply on_disk_moves
  intro disk after ran installing
  simp only [renameRollout, bind_ok, pure_ok] at ran
  obtain ⟨_, _, rfl⟩ := ran
  exact installing_set _ _ _ comes (installing_set _ _ _ leaves installing)

theorem fallible_moves : Moves (KeepsBacked start prepared operationId target) (fallible : ImportAccess δ Unit) :=
  moves_fallible keeps_refl

theorem restore_moves (other : Uuid) :
    Moves (KeepsBacked start prepared operationId target) (restoreDatabase other target : ImportAccess δ Unit) := by
  apply moves_touch keeps_refl
  intro state after ran backed
  simp only [bind_ok, pure_ok] at ran
  obtain ⟨database, _, rfl⟩ := ran
  refine ⟨⟨backed.installing.outside, fun path differ => ?_⟩, backed.listed, backed.copy, backed.planned⟩
  rw [Keyed.lookup_insert, if_neg differ]
  exact backed.installing.databases path differ

variable (env : ImportEnv δ)

theorem materialize_moves (thread : PreparedThread) (member : thread ∈ prepared) (content : ContentRefV4) :
    Moves (KeepsBacked start prepared operationId target) (materializeV4 env thread content) := by
  have normalized : Own prepared thread.copyPath := ⟨thread, member, .inr (.inr rfl)⟩
  have temporary : Own prepared thread.temporaryPath := ⟨thread, member, .inr (.inl rfl)⟩
  apply Prog.acts_bind _ _ (write_new_moves _ _ normalized)
  intro _
  apply Prog.acts_bind _ _ (of_disk_moves _)
  intro provider
  apply Prog.acts_bind _ _ (Prog.steps_of_except _ _)
  intro _
  apply Prog.acts_bind _ _ (write_new_moves _ _ temporary)
  intro _
  exact discard_moves _ normalized

theorem stored_moves (thread : PreparedThread) (member : thread ∈ prepared) :
    Moves (KeepsBacked start prepared operationId target) (materializeStored env thread) := by
  have copied : Own prepared thread.copyPath := ⟨thread, member, .inr (.inr rfl)⟩
  have temporary : Own prepared thread.temporaryPath := ⟨thread, member, .inr (.inl rfl)⟩
  apply Prog.acts_bind _ _ fallible_moves
  intro _
  apply Prog.acts_bind _ _ (Prog.steps_of_except _ _)
  intro _
  apply Prog.acts_bind _ _ (moves_probe keeps_refl _)
  intro _
  apply Prog.acts_bind _ _ (Prog.steps_of_except _ _)
  intro _
  apply Prog.acts_bind _ _ fallible_moves
  intro _
  apply Prog.acts_bind
  · apply Prog.acts_attempt
    exact Prog.acts_bind _ _ (write_new_moves _ _ copied) fun _ => rename_moves _ _ copied temporary
  · intro result
    cases result with
    | ok _ => trivial
    | error error => exact Prog.acts_bind _ _ (discard_moves _ copied) fun _ => trivial

theorem stage_moves (thread : PreparedThread) (member : thread ∈ prepared) :
    Moves (KeepsBacked start prepared operationId target) (stageImport env thread) := by
  apply Prog.acts_bind _ _ fallible_moves
  intro _
  apply Prog.acts_bind _ _ fallible_moves
  intro _
  cases thread.v4Content with
  | some content => exact materialize_moves env thread member content
  | none => exact stored_moves env thread member

theorem rows_moves : Moves (KeepsBacked start prepared operationId target) (importRows env target prepared) := by
  apply on_disk_moves
  intro disk after ran installing
  simp only [bind_ok, pure_ok] at ran
  obtain ⟨_, _, database, _, rfl⟩ := ran
  refine ⟨installing.outside, fun path differ => ?_⟩
  rw [Keyed.lookup_insert, if_neg differ]
  exact installing.databases path differ

theorem install_moves (thread : PreparedThread) (member : thread ∈ prepared) :
    Moves (KeepsBacked start prepared operationId target) (installRollout thread : ImportAccess δ Unit) := by
  apply Prog.acts_bind _ _ fallible_moves
  intro _
  exact rename_moves _ _ ⟨thread, member, .inr (.inl rfl)⟩ ⟨thread, member, .inl rfl⟩

theorem each_moves {α : Type} (items : List α) (body : α → ImportAccess δ Unit)
    (each : ∀ item ∈ items, Moves (KeepsBacked start prepared operationId target) (body item)) :
    Moves (KeepsBacked start prepared operationId target) (Prog.forEach items body) := by
  induction items with
  | nil => trivial
  | cons item rest ih =>
      obtain ⟨own, others⟩ := List.forall_mem_cons.mp each
      exact Prog.acts_bind _ _ own fun _ => ih others

variable (journal : OperationJournal) (own : journal.operationId = operationId)
  (same : journal.plannedRollouts = prepared.map PreparedThread.planned)

include own same

theorem apply_import_moves : Moves (KeepsBacked start prepared operationId target) (applyImport env prepared target journal) := by
  apply Prog.acts_bind
  · exact write_journal_moves _ own same
  · intro _
    apply Prog.acts_bind _ _ (each_moves _ _ fun thread member => stage_moves env thread member)
    intro _
    apply Prog.acts_bind _ _ fallible_moves
    intro _
    apply Prog.acts_bind _ _ (rows_moves env)
    intro _
    exact each_moves _ _ fun thread member => install_moves thread member

theorem install_import_moves : Moves (KeepsBacked start prepared operationId target) (installImport env prepared target journal) := by
  apply Prog.acts_bind _ _ (Prog.acts_attempt _ (apply_import_moves env journal own same))
  intro applied
  cases applied with
  | error error => trivial
  | ok _ =>
      apply Prog.acts_bind
      · exact write_journal_moves _ own same
      · intro _
        apply Prog.acts_bind _ _ (Prog.acts_attempt _ fallible_moves)
        intro cancelled
        cases cancelled with
        | error error => trivial
        | ok _ =>
            apply Prog.acts_attempt
            apply Prog.acts_bind _ _ (of_disk_moves _)
            intro report
            exact each_moves _ _ fun thread member => of_disk_moves _

theorem rollback_moves (error : String) :
    Moves (KeepsBacked start prepared operationId target) (rollbackAndFail env error prepared target journal) := by
  have matching : ∀ thread ∈ prepared,
      Moves (KeepsBacked start prepared operationId target) (removeMatching env thread.targetPath thread.bundle.rollout.sha256) := by
    intro thread member
    apply Prog.acts_bind _ _ (Prog.acts_attempt _ (of_disk_moves _))
    intro hash
    cases hash with
    | error error => trivial
    | ok hash =>
        dsimp only
        split
        · exact remove_moves _ ⟨thread, member, .inl rfl⟩
        · trivial
  apply Prog.acts_bind
  · apply each_moves
    intro thread member
    apply Prog.acts_bind _ _ (discard_moves _ ⟨thread, member, .inr (.inl rfl)⟩)
    intro _
    exact Prog.acts_bind _ _ (Prog.acts_attempt _ (matching thread member)) fun _ => trivial
  · intro _
    apply Prog.acts_bind
    · apply Prog.acts_attempt
      exact restore_moves _
    · intro restored
      apply Prog.acts_bind
      · exact Prog.acts_attempt _ (write_journal_moves _ own same)
      · intro _
        apply Prog.acts_bind _ _ (Prog.steps_of_except _ _)
        intro _
        exact Prog.steps_of_except _ _

theorem finish_moves (skipped : Nat) (installed : Except String Unit) :
    Moves (KeepsBacked start prepared operationId target) (finishImport env prepared target journal skipped installed) := by
  cases installed with
  | error error => exact rollback_moves env journal own same error
  | ok _ =>
      apply Prog.acts_bind
      · exact write_journal_moves _ own same
      · intro _
        trivial

end Backed

end SessionSync.Import
