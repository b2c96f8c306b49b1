import SessionSync.Import.Phases

set_option autoImplicit false

namespace SessionSync.Import

open SessionSync.Core Checked Local Storage Checkout Rollout

variable {δ : Type} (env : ImportEnv δ) {start : Disk δ} {prepared : List PreparedThread} {operationId : Uuid}

variable (start prepared operationId) in
def Phase (state : ImportDisk δ) : Prop :=
  Early start prepared operationId state ∨ ∃ target, Backed start prepared operationId target state

theorem phase_plans (state : ImportDisk δ) (phase : Phase start prepared operationId state) :
    Plans operationId (prepared.map PreparedThread.planned) state.store := by
  rcases phase with early | ⟨_, backed⟩
  · exact early.planned
  · exact backed.planned

-- A run that stays backed up is a run whose states have a phase.
theorem backed_safe {ε α : Type} {target : String} (prog : Prog (Faulty (ImportDisk δ)) ε α)
    (moves : Moves (KeepsBacked start prepared operationId target) prog) (device : Faulty (ImportDisk δ))
    (backed : Backed start prepared operationId target device.state) :
    SafeAccess (Phase start prepared operationId) prog
      (fun _ seen => Backed start prepared operationId target seen.state) device := by
  have safe := safe_of_moves (Backed start prepared operationId target) prog moves device backed
  rw [SafeAccess, Prog.safe_iff] at safe ⊢
  exact ⟨fun seen cut => .inr ⟨target, safe.1 seen cut⟩, safe.2⟩

theorem early_write (journal : OperationJournal) (state : ImportDisk δ) (own : journal.operationId = operationId)
    (same : journal.plannedRollouts = prepared.map PreparedThread.planned) (early : Early start prepared operationId state) :
    Early start prepared operationId
      { state with store := { state.store with journals := state.store.journals.insert journal.operationId journal } } :=
  ⟨early.home, early.unlisted, plans_write journal _ _ own same early.planned⟩

variable (start prepared operationId) in
def KeepsEarly (state after : ImportDisk δ) : Prop := Early start prepared operationId state → Early start prepared operationId after

theorem early_refl (state : ImportDisk δ) : KeepsEarly start prepared operationId state state := id

theorem write_early_moves (journal : OperationJournal) (own : journal.operationId = operationId)
    (same : journal.plannedRollouts = prepared.map PreparedThread.planned) :
    Moves (KeepsEarly start prepared operationId) (writeJournal journal) := by
  apply moves_atomic early_refl
  · exact fun state early => ⟨early.home, early.unlisted, plans_erase _ _ _ early.planned⟩
  · exact fun state => early_write journal state own same

-- Before the first write to the home there is no temporary file to remove.
theorem discard_early_moves (path : RolloutPath) (absent : rolloutAt path start = none) :
    Moves (KeepsEarly start prepared operationId) (discardRollout path : ImportAccess δ Unit) := by
  refine Prog.acts_bind _ _ (Prog.acts_attempt _ (moves_touch early_refl _ ?_)) fun _ => trivial
  intro state after ran early
  obtain ⟨disk, outcome, same⟩ := (mapped_ok _ _ _).mp ran
  rw [early.home, removeRollout, absent] at outcome
  cases outcome

theorem recover_prepared_moves (journal : OperationJournal) (own : journal.operationId = operationId)
    (same : journal.plannedRollouts = prepared.map PreparedThread.planned) (fresh : FreshNames start prepared) :
    Moves (KeepsEarly start prepared operationId) (recoverPrepared journal) := by
  have rounds : ∀ planned : List JournalRollout, (∀ rollout ∈ planned, rolloutAt rollout.temporaryPath start = none) →
      Moves (KeepsEarly start prepared operationId)
        (Prog.forEach planned fun rollout => (discardRollout rollout.temporaryPath : ImportAccess δ Unit)) := by
    intro planned absent
    induction planned with
    | nil => trivial
    | cons rollout rest ih =>
        obtain ⟨first, others⟩ := List.forall_mem_cons.mp absent
        exact Prog.acts_bind _ _ (discard_early_moves _ first) fun _ => ih others
  apply Prog.acts_bind
  · apply rounds
    rw [same, planned_forall]
    exact fresh.temporary
  · intro _
    apply Prog.acts_bind
    · exact write_early_moves _ own same
    · intro _
      trivial

theorem recover_rollout_moves {target : String} (thread : PreparedThread) (member : thread ∈ prepared) :
    Moves (KeepsBacked start prepared operationId target) (recoverRollout env thread.planned) := by
  apply Prog.acts_bind _ _ (discard_moves _ ⟨thread, member, .inr (.inl rfl)⟩)
  intro _
  apply Prog.acts_bind _ _ (moves_probe keeps_refl _)
  intro present
  cases present with
  | false => trivial
  | true =>
      apply Prog.acts_bind _ _ (Prog.acts_attempt _ (of_disk_moves _))
      intro hash
      split
      · apply Prog.acts_bind
        · exact remove_moves _ ⟨thread, member, .inl rfl⟩
        · intro _
          trivial
      · trivial

theorem recover_rollouts_moves {target : String} (threads : List PreparedThread) (inside : ∀ thread ∈ threads, thread ∈ prepared) :
    Moves (KeepsBacked start prepared operationId target) (recoverRollouts env (threads.map PreparedThread.planned)) := by
  induction threads with
  | nil => trivial
  | cons thread rest ih =>
      obtain ⟨own, others⟩ := List.forall_mem_cons.mp inside
      apply Prog.acts_bind _ _ (recover_rollout_moves env thread own)
      intro _
      apply Prog.acts_bind _ _ (ih others)
      intro _
      trivial

theorem recover_backed_safe (journal : OperationJournal) (own : journal.operationId = operationId)
    (same : journal.plannedRollouts = prepared.map PreparedThread.planned) (device : Faulty (ImportDisk δ))
    (phase : Phase start prepared operationId device.state) :
    SafeAccess (Phase start prepared operationId) (recoverBackedUp env journal) (fun _ _ => True) device := by
  apply safe_then _ _ (fun outcome seen => seen.state = device.state ∧ ∀ manifest, outcome = .ok manifest →
    device.state.store.manifests operationId = some manifest)
  · apply safe_inspect _ _ _ phase
    · intro manifest rest held _
      rw [found_ok, own] at held
      exact ⟨rfl, fun other equal => Except.ok.inj equal ▸ held⟩
    · exact fun error rest _ => ⟨rfl, fun _ => nofun⟩
  · intro manifest seen _ ⟨unmoved, listed⟩
    have listed := listed manifest rfl
    obtain early | ⟨target, backed⟩ := phase
    · rw [early.unlisted] at listed
      cases listed
    · rw [backed.listed, Option.some.injEq] at listed
      subst listed
      rw [← unmoved] at backed
      refine Prog.safe_mono _ _ _ _ (fun _ _ _ _ => trivial) (backed_safe _ ?_ seen backed)
      apply Prog.acts_bind _ _ (Prog.steps_of_except _ _)
      intro _
      apply Prog.acts_bind
      · rw [same]
        exact recover_rollouts_moves env prepared fun _ => id
      · intro preserved
        apply Prog.acts_bind
        · exact restore_moves _
        · intro _
          apply Prog.acts_bind
          · exact write_journal_moves _ own same
          · intro _
            trivial
  · exact fun _ _ _ _ => trivial

-- A recovery can be cut off wherever it is, and begun again.
theorem recover_safe (confirmed : Bool) (fresh : FreshNames start prepared) (device : Faulty (ImportDisk δ))
    (phase : Phase start prepared operationId device.state) :
    SafeAccess (Phase start prepared operationId) (recoverIncompleteOperation env confirmed operationId)
      (fun _ _ => True) device := by
  apply safe_check _ _ _ _ phase
  · intro _ _
    apply safe_then _ _ (fun outcome seen => seen.state = device.state ∧ ∀ journal, outcome = .ok journal →
      device.state.store.journals[operationId]? = some journal)
    · apply safe_inspect _ _ _ phase
      · intro journal rest held _
        rw [found_ok] at held
        exact ⟨rfl, fun other equal => Except.ok.inj equal ▸ held⟩
      · exact fun error rest _ => ⟨rfl, fun _ => nofun⟩
    · intro journal seen here ⟨unmoved, stored⟩
      obtain ⟨own, same⟩ := phase_plans device.state phase journal (stored journal rfl)
      apply safe_probe _ _ _ _ here
      have done : SafeAccess (Phase start prepared operationId)
          (if ((seen.state.store.manifests journal.operationId).isSome = false ∧ journal.status = .preparing) then
            recoverPrepared journal
            else recoverBackedUp env journal) (fun _ _ => True) seen := by
        split
        · next early =>
            rw [own, Option.isSome_eq_false_iff, Option.isNone_iff_eq_none] at early
            rcases here with first | ⟨_, backed⟩
            · have safe := safe_of_moves _ _ (recover_prepared_moves journal own same fresh) seen first
              rw [SafeAccess, Prog.safe_iff] at safe ⊢
              exact ⟨fun later cut => .inl (safe.1 later cut), trivial⟩
            · rw [backed.listed] at early
              cases early.1
        · exact recover_backed_safe env journal own same seen here
      cases status : journal.status with
      | completed => exact safe_done _ _ _ here trivial
      | rolledBack => exact safe_done _ _ _ here trivial
      | preparing | backedUp | applying | validating | recoveryRequired => simpa only [status] using done
    · exact fun _ _ _ _ => trivial
  · exact fun _ _ => trivial

end SessionSync.Import
