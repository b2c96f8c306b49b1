import SessionSync.Checkout.Undoing
import SessionSync.Tracking.Effects

set_option autoImplicit false

namespace SessionSync.Checkout

open SessionSync.Core Checked Local Tracking

variable {δ : Type}

variable (env : CheckoutEnv δ)

-- What a scan of the home finds, thread by thread.
def Matched (expected : Std.ExtTreeMap String String) (disk : Disk δ) : Prop :=
  ∃ result actual, env.scan disk.home = .ok result ∧ result.warnings = 0 ∧
    semanticThreadHashes env disk.home result.threads ∅ = .ok actual ∧ actual.toList = expected.toList

def FilesMatch (swaps : List CheckoutFileSwap) (disk : Disk δ) : Prop :=
  ∀ swap ∈ swaps, fileHash env swap.slot disk = .ok swap.expectedSha256

def InPlace (journal : CheckoutJournal) (disk : Disk δ) : Prop :=
  Matched env journal.expectedThreadHashes disk ∧ FilesMatch env journal.fileSwaps disk

section Validation

variable (disk : Disk δ)

theorem file_swaps_come (swaps : List CheckoutFileSwap) (faults : List Bool) :
    SafeAccess (fun seen => seen = disk) (validateFileSwaps env swaps)
      (comesTo faults (fun _ _ => FilesMatch env swaps disk) (¬ FilesMatch env swaps disk)) ⟨disk, faults⟩ := by
  induction swaps generalizing faults with
  | nil => exact comes_done _ _ _ _ _ rfl (List.forall_mem_nil _)
  | cons swap rest ih =>
      apply comes_then _ _ (fun _ _ => fileHash env swap.slot disk = .ok swap.expectedSha256)
      · apply comes_then _ _ (fun actual _ => fileHash env swap.slot disk = .ok actual)
        · refine comes_inspect _ _ _ _ _ rfl (fun _ => id) fun error refused matches_ => ?_
          rw [matches_ swap List.mem_cons_self] at refused
          cases refused
        · rintro actual _ rest_ rfl read
          refine comes_result _ _ _ _ _ rfl (fun _ passes => ?_) fun error refused matches_ => ?_
          · rw [read, (ensure_ok _ _ _).mp passes]
          · have same := (read.symm.trans (matches_ swap List.mem_cons_self))
            rw [(ensure_ok _ _ ()).mpr (Except.ok.inj same)] at refused
            cases refused
      · rintro _ _ faults rfl first
        refine comes_mono _ _ _ _ _ _ _ (fun _ _ _ later => ?_) (fun stopped matches_ => ?_) (ih faults)
        · exact List.forall_mem_cons.mpr ⟨first, later⟩
        · exact stopped fun other member => matches_ other (List.mem_cons_of_mem _ member)

theorem scan_comes (faults : List Bool) (blocked : Prop)
    (fails : (∀ result, env.scan disk.home = .ok result → result.warnings ≠ 0) → blocked) :
    SafeAccess (fun seen => seen = disk) (scanned env)
      (comesTo faults (fun result _ => env.scan disk.home = .ok result ∧ result.warnings = 0) blocked) ⟨disk, faults⟩ := by
  apply comes_then _ _ (fun result _ => env.scan disk.home = .ok result)
  · refine comes_inspect _ _ _ _ _ rfl (fun _ => id) fun error refused => fails fun result found => ?_
    rw [found] at refused
    cases refused
  · rintro result _ rest rfl found
    refine comes_check _ _ _ _ _ _ ?_ ?_ ?_
    · rfl
    · exact fun _ passes => comes_done _ _ _ _ _ rfl ⟨found, (ensure_ok _ _ _).mp passes⟩
    · intro error refused
      refine fails fun other again none_ => ?_
      cases Except.ok.inj (found.symm.trans again)
      rw [(ensure_ok _ _ ()).mpr none_] at refused
      cases refused

variable (expected : Std.ExtTreeMap String String)

-- The threads that were scanned, hashed and compared, and what comes after that.
theorem hashes_come (result : ScanResult) (found : env.scan disk.home = .ok result) (quiet : result.warnings = 0)
    (next : Access δ Unit) (good : Prop) (blocked : Prop) (fails : ¬ Matched env expected disk → blocked)
    (goes : Matched env expected disk → ∀ faults, SafeAccess (fun seen => seen = disk) next
      (comesTo faults (fun _ _ => good) blocked) ⟨disk, faults⟩) (faults : List Bool) :
    SafeAccess (fun seen => seen = disk) (do
      let actual ← threadHashes env result.threads
      Prog.ofExcept (validateThreadHashes expected actual)
      next) (comesTo faults (fun _ _ => good) blocked) ⟨disk, faults⟩ := by
  apply comes_then _ _ (fun actual _ => semanticThreadHashes env disk.home result.threads ∅ = .ok actual)
  · refine comes_inspect _ _ _ _ _ rfl (fun _ => id) fun error refused => fails ?_
    rintro ⟨other, actual, again, _, hashed, _⟩
    cases Except.ok.inj (found.symm.trans again)
    rw [hashed] at refused
    cases refused
  · rintro actual _ rest rfl hashed
    refine comes_check _ _ _ _ _ _ rfl (fun _ passes => ?_) fun error refused => fails ?_
    · exact goes ⟨result, actual, found, quiet, hashed, (ensure_ok _ _ _).mp passes⟩ rest
    · rintro ⟨other, others, again, _, rehashed, same⟩
      cases Except.ok.inj (found.symm.trans again)
      cases Except.ok.inj (hashed.symm.trans rehashed)
      rw [validateThreadHashes, (ensure_ok _ _ ()).mpr same] at refused
      cases refused

theorem not_matched_loud (loud : ∀ result, env.scan disk.home = .ok result → result.warnings ≠ 0) : ¬ Matched env expected disk := by
  rintro ⟨result, _, found, quiet, _⟩
  exact loud result found quiet

theorem journal_result_comes (journal : CheckoutJournal) (faults : List Bool) :
    SafeAccess (fun seen => seen = disk) (validateCheckoutJournalResult env journal)
      (comesTo faults (fun _ _ => InPlace env journal disk) (¬ InPlace env journal disk)) ⟨disk, faults⟩ := by
  have lacks : ¬ Matched env journal.expectedThreadHashes disk → ¬ InPlace env journal disk := fun differs both => differs both.1
  apply comes_then _ _ _ _ _ _ _ (scan_comes env disk faults _ fun loud => lacks (not_matched_loud env disk _ loud))
  rintro result _ faults rfl ⟨found, quiet⟩
  refine hashes_come env _ _ result found quiet (validateFileSwaps env journal.fileSwaps) _ _ lacks (fun matched faults => ?_) faults
  exact comes_mono _ _ _ _ _ _ _ (fun _ _ _ files => ⟨matched, files⟩) (fun differs both => differs both.2)
    (file_swaps_come env _ journal.fileSwaps faults)

-- The check that a checkout makes of itself.
theorem result_comes (snapshot : LocalSnapshot) (journal : CheckoutJournal) (faults : List Bool)
    (expected : ∀ home, semanticThreadHashes env home snapshot.threads ∅ = .ok journal.expectedThreadHashes) :
    SafeAccess (fun seen => seen = disk) (do
      validateCheckoutResult env snapshot
      validateFileSwaps env journal.fileSwaps)
      (comesTo faults (fun _ _ => InPlace env journal disk) True) ⟨disk, faults⟩ := by
  apply comes_then _ _ (fun _ _ => Matched env journal.expectedThreadHashes disk)
  · apply comes_then _ _ _ _ _ _ _ (scan_comes env disk faults _ fun _ => trivial)
    rintro result _ faults rfl ⟨found, quiet⟩
    apply comes_then _ _ (fun hashes _ => hashes = journal.expectedThreadHashes)
    · refine comes_inspect _ _ _ _ _ rfl (fun hashes hashed => ?_) fun _ _ => trivial
      exact Except.ok.inj (hashed.symm.trans (expected _))
    · rintro _ _ faults rfl rfl
      have ends : (fun actual => Prog.ofExcept (validateThreadHashes journal.expectedThreadHashes actual) : _ → Access δ Unit) =
          fun actual => Prog.ofExcept (validateThreadHashes journal.expectedThreadHashes actual) >>= fun _ => pure () := by
        funext actual
        cases validateThreadHashes journal.expectedThreadHashes actual <;> rfl
      rw [ends]
      exact hashes_come env _ _ result found quiet (pure ()) _ _ (fun _ => trivial)
        (fun matched faults => comes_done _ _ _ _ _ rfl matched) faults
  · rintro _ _ faults rfl matched
    exact comes_mono _ _ _ _ _ _ _ (fun _ _ _ files => ⟨matched, files⟩) (fun _ => trivial)
      (file_swaps_come env _ journal.fileSwaps faults)

end Validation

section Tracking

variable (now : String)

def reconciled (update : CheckoutTrackingUpdate) : Tracking.Access TrackingRecord :=
  Tracking.reconcileCheckout env.codexHomeKey update.remoteId update.namespaceId update.expectedGeneration update.integratedHead
    update.activateNamespace now

-- The tracking database takes the update.
def Accepts (asked : Option CheckoutTrackingUpdate) (tracking : TrackingDb) : Prop :=
  ∀ update, asked = some update → ∃ record after, (reconciled env now update).exec tracking = (.ok record, after)

theorem head_advanced (update : CheckoutTrackingUpdate) (home : String) (next : Option Int64 × Int64) (before after : TrackingDb)
    (record : TrackingRecord) (known : env.codexHomeKey = .ok home) (counted : nextGeneration update.expectedGeneration = .ok next)
    (run : reconcileHead (home, update.remoteId, update.namespaceId) update.expectedGeneration next.1 next.2 update.integratedHead
      update.activateNamespace now before = .ok (record, after)) : Advanced env (some update) after := by
  rintro _ ⟨⟩
  cases replay : alreadyApplied before (home, update.remoteId, update.namespaceId) next.2 update.integratedHead with
  | some row =>
      obtain ⟨active, _, rfl⟩ := (reconcile_replay_ok _ _ _ _ _ _ _ _ _ _ row replay).mp run
      obtain ⟨stored, generation, head⟩ := (already_applied_some _ _ _ _ row).mp replay
      exact ⟨home, next, row, known, counted, stored, generation, head, active⟩
  | none =>
      obtain ⟨_, row, made, _, rfl⟩ := (reconcile_install_ok _ _ _ _ _ _ _ _ _ _ replay).mp run
      refine ⟨home, next, row, known, counted, ?_, by rw [made], by rw [made], fun activating => ?_⟩
      · cases update.activateNamespace <;> exact (Keyed.lookup_insert _ _ _ _).trans (if_pos rfl)
      · rw [if_pos activating, isActive, activate, Keyed.lookup_insert, if_pos rfl]
        rfl

theorem reconciled_runs {crash : TrackingDb → Prop} (anywhere : ∀ tracking, crash tracking) (update : CheckoutTrackingUpdate)
    (before : TrackingDb) :
    (reconciled env now update).Safe crash (fun outcome after =>
      (reconciled env now update).exec before = (outcome, after) ∧ (∀ error, outcome = .error error → after = before) ∧
        ∀ record, outcome = .ok record → Advanced env (some update) after) before := by
  have runs : (reconciled env now update).Safe crash (fun outcome after =>
      (∀ error, outcome = .error error → after = before) ∧
        ∀ record, outcome = .ok record → Advanced env (some update) after) before := by
    apply Prog.safe_bind
    refine Prog.safe_of_except _ _ _ (anywhere _) ?_
    cases validateHead update.integratedHead with
    | error error => exact ⟨fun _ _ => rfl, nofun⟩
    | ok _ =>
        apply Prog.safe_bind
        refine Prog.safe_of_except _ _ _ (anywhere _) ?_
        cases known : env.codexHomeKey with
        | error error => exact ⟨fun _ _ => rfl, nofun⟩
        | ok home =>
            apply Prog.safe_bind
            refine Prog.safe_of_except _ _ _ (anywhere _) ?_
            cases counted : nextGeneration update.expectedGeneration with
            | error error => exact ⟨fun _ _ => rfl, nofun⟩
            | ok next =>
                refine Prog.safe_transact _ _ _ (anywhere _) (fun record after run => ⟨anywhere _, nofun, fun _ _ => ?_⟩)
                  fun _ _ => ⟨fun _ _ => rfl, nofun⟩
                exact head_advanced env now update home next before after record known counted run
  rw [Prog.safe_iff] at runs ⊢
  exact ⟨runs.1, rfl, runs.2⟩

def Disk.track (tracking : TrackingDb) (disk : Disk δ) : Disk δ := { disk with tracking := tracking }

theorem tracking_safe (journal : CheckoutJournal) (disk : Disk δ) (faults : List Bool) :
    SafeAccess (fun seen => ∃ tracking, seen = disk.track tracking) (applyTrackingUpdate env now journal)
      (fun outcome seen => (outcome ≠ .ok () → seen.state = disk) ∧
        (outcome = .ok () → Advanced env journal.trackingUpdate seen.state.tracking) ∧
        (faults = [] → seen.faults = [] ∧ (outcome = .ok () ↔ Accepts env now journal.trackingUpdate disk.tracking)))
      ⟨disk, faults⟩ := by
  unfold applyTrackingUpdate
  cases asked : journal.trackingUpdate with
  | none => exact safe_done _ _ _ ⟨disk.tracking, rfl⟩ ⟨fun failed => absurd rfl failed, fun _ => nofun, fun none_ =>
      ⟨none_, fun _ => nofun, fun _ => rfl⟩⟩
  | some update =>
      apply safe_then _ _ _ _ _ (safe_idle ⟨disk, faults⟩ ⟨disk.tracking, rfl⟩)
      · rintro _ ⟨state, rest⟩ _ ⟨same, calm⟩
        obtain rfl := same.symm
        apply safe_then _ _ (fun outcome seen => (∀ error, outcome = .error error → seen.state = disk) ∧
          (∀ record, outcome = .ok record → Advanced env (some update) seen.state.tracking) ∧ seen.faults = rest ∧
          (reconciled env now update).exec disk.tracking = (outcome, seen.state.tracking))
        · refine Prog.safe_zoom (fun device : Faulty (Disk δ) => device.state.tracking)
            (fun tracking device => ⟨device.state.track tracking, device.faults⟩) (fun _ _ => rfl) (fun _ _ _ => rfl)
            (reconciled env now update) _ disk.tracking ⟨disk, rest⟩ ?_
          refine Prog.safe_mono _ _ _ _ (fun outcome after _ left => ?_)
            (reconciled_runs env now (fun tracking => ⟨tracking, rfl⟩) update disk.tracking)
          obtain ⟨run, refused, advanced⟩ := left
          exact ⟨fun error failed => congrArg (disk.track ·) (refused error failed), advanced, rfl, run⟩
        · rintro record seen kept ⟨_, advanced, silent, run⟩
          refine safe_done _ _ _ kept ⟨fun failed => absurd rfl failed, fun _ => advanced record rfl, fun none_ => ?_⟩
          refine ⟨silent.trans (calm none_).1, fun _ => ?_, fun _ => rfl⟩
          rintro _ ⟨⟩
          exact ⟨record, _, run⟩
        · rintro error seen _ ⟨refused, _, silent, run⟩
          refine ⟨fun _ => refused error rfl, nofun, fun none_ => ⟨silent.trans (calm none_).1, nofun, fun accepts => ?_⟩⟩
          obtain ⟨record, after, ran⟩ := accepts update rfl
          rw [run] at ran
          cases ran
      · exact fun error seen _ left => ⟨fun _ => left.1, nofun, fun none_ => absurd (left.2 none_).2 nofun⟩

end Tracking

section Recovery

variable {env} {input : CheckoutInput} {start : Disk δ} (now : String)

theorem in_place_target (journal : CheckoutJournal) (disk : Disk δ) (draft : Draft env input start journal)
    (place : InPlace env journal disk) : AtTarget env input start disk := by
  obtain ⟨snapshot, read, hashes, files⟩ := draft.target
  obtain ⟨⟨result, actual, scanned, quiet, hashed, same⟩, matched⟩ := place
  refine ⟨snapshot, result, journal.expectedThreadHashes, actual, read, scanned, quiet, hashes _, hashed, same, ?_⟩
  intro bytes output live written
  obtain ⟨swap, member, slot, digest⟩ := files bytes output live written
  rw [← slot, ← digest]
  exact matched swap member

section Applied

variable (journal : CheckoutJournal) (draft : Draft env input start journal) (status : journal.status = .localApplied)

include status

omit draft in
theorem applied_promise (disk : Disk δ) : Promise env input start journal disk := by
  rw [Promise, status]
  trivial

include draft

-- A journal that says that the checkout was applied promises nothing that tracking could break.
theorem applied_tracked (disk : Disk δ) (stored : disk.journals[input.operationId]? = some journal) (tracking : TrackingDb) :
    Ready env input start (disk.track tracking) := by
  intro other found
  cases Option.some.inj (stored.symm.trans found)
  exact ⟨draft, applied_promise journal status _⟩

theorem reject_safe (error : String) (device : Faulty (Disk δ)) (here : Ready env input start device.state) :
    SafeAccess (Ready env input start) (rejectLocalAppliedRecovery journal error) (fun outcome seen => device.faults = [] →
      seen.faults = [] ∧ outcome = .error error ∧ seen.state = device.state.setJournal { journal with error := some error })
      device := by
  have kept : Draft env input start { journal with error := some error } := draft_status journal journal.status _ draft
  apply safe_then _ _ _ _ _ (write_journal_safe _ kept.valid device here (ready_dropped _ _ kept.own)
    (ready_set _ _ kept (applied_promise { journal with error := some error } status _)))
  · exact fun _ seen ends written => ⟨ends, fun none_ => ⟨(written.1 none_).1, rfl, written.2.1 rfl⟩⟩
  · exact fun error seen _ written none_ => absurd (written.1 none_).2 nofun

-- What is left of a checkout once its home is in place.
theorem finish_safe (device : Faulty (Disk δ)) (stored : device.state.journals[input.operationId]? = some journal) :
    SafeAccess (Ready env input start) (finishLocalApplied env now journal) (fun outcome seen => device.faults = [] →
      InPlace env journal device.state → seen.faults = [] ∧
        (Accepts env now journal.trackingUpdate device.state.tracking → ∃ final, outcome = .ok final ∧ final.status = .completed ∧
          seen.state.journals[input.operationId]? = some final) ∧
        (¬ Accepts env now journal.trackingUpdate device.state.tracking → ∃ error, outcome = .error error ∧
          seen.state = device.state.setJournal { journal with error := some error })) device := by
  have here : Ready env input start device.state := applied_tracked journal draft status device.state stored device.state.tracking
  apply safe_tries _ _ _ _ _ (safe_reads _ _ device here (journal_result_comes env device.state journal device.faults))
  rintro (differs | _) ⟨state, faults⟩ kept ⟨same, comes⟩
  · obtain rfl : device.state = state := same.symm
    exact Prog.safe_mono _ _ _ _ (fun outcome seen _ _ none_ place => absurd place (comes none_))
      (reject_safe journal draft status _ ⟨_, faults⟩ here)
  · obtain rfl : device.state = state := same.symm
    obtain ⟨place, calm⟩ := comes
    apply safe_tries _ _ (fun outcome seen => (∃ tracking, seen.state = device.state.track tracking) ∧
      (outcome ≠ .ok () → seen.state = device.state) ∧
      (outcome = .ok () → Advanced env journal.trackingUpdate seen.state.tracking) ∧
      (faults = [] → seen.faults = [] ∧ (outcome = .ok () ↔ Accepts env now journal.trackingUpdate device.state.tracking)))
    · refine safe_weaken (fun seen => ∃ tracking, seen = device.state.track tracking) _ ?_ _ _ _ ?_
      · rintro _ ⟨tracking, rfl⟩
        exact applied_tracked journal draft status device.state stored tracking
      · exact Prog.safe_mono _ _ _ _ (fun outcome seen kept left => ⟨kept, left⟩) (tracking_safe env now journal device.state faults)
    · rintro (refused | _) seen kept ⟨⟨tracking, moved⟩, unmoved, advanced, silent⟩
      · have still : seen.state = device.state := unmoved nofun
        refine Prog.safe_mono _ _ _ _ (fun outcome last _ rejected none_ _ => ?_) (reject_safe journal draft status _ seen kept)
        obtain ⟨quiet, iff⟩ := silent (calm none_)
        obtain ⟨ends, failed, written⟩ := rejected quiet
        refine ⟨ends, fun accepts => absurd (iff.mpr accepts) nofun, fun _ => ⟨_, failed, ?_⟩⟩
        rw [written, still]
      · have settled : Draft env input start { journal with status := .completed, error := none } := draft_status journal _ _ draft
        have target : AtTarget env input start seen.state := by
          rw [moved]
          exact in_place_target journal device.state draft place
        have tracked : Advanced env input.trackingUpdate seen.state.tracking := draft.update ▸ advanced rfl
        apply safe_then _ _ _ _ _ (write_journal_safe _ settled.valid seen kept (ready_dropped _ _ settled.own)
          (ready_set _ _ settled ⟨target, tracked⟩))
        · intro _ last ends written
          refine safe_done _ _ _ ends fun none_ _ => ?_
          obtain ⟨quiet, iff⟩ := silent (calm none_)
          refine ⟨(written.1 quiet).1, fun _ => ⟨_, rfl, rfl, ?_⟩, fun refuses => absurd (iff.mp rfl) refuses⟩
          rw [written.2.1 rfl, ← settled.own]
          exact set_lookup _
        · intro error last _ written none_
          exact absurd (written.1 (silent (calm none_)).1).2 nofun

end Applied

-- A journal that is not at its end tells how to roll the checkout back.
theorem stored_undoable (stored : CheckoutJournal) (disk : Disk δ) (ready : Ready env input start disk)
    (found : disk.journals[input.operationId]? = some stored) (open_ : stored.status ≠ .completed)
    (rolled : stored.status ≠ .rolledBack) (applied : stored.status ≠ .localApplied) : Undoable env input start stored disk := by
  obtain ⟨draft, promise⟩ := ready stored found
  rw [Promise] at promise
  have early : stored.status.writesLive = false → Early start stored.operationId disk := by
    intro before
    cases status : stored.status with
    | preparing | backedUp =>
        rw [status] at promise
        exact promise
    | applying | validating | recoveryRequired =>
        rw [status] at before
        cases before
    | completed => exact absurd status open_
    | rolledBack => exact absurd status rolled
    | localApplied => exact absurd status applied
  have restorable : stored.status.writesLive = true → Restorable start stored disk := by
    intro begun
    cases status : stored.status with
    | applying | validating | recoveryRequired =>
        rw [status] at promise
        exact promise
    | preparing | backedUp | completed | rolledBack =>
        rw [status] at begun
        cases begun
    | localApplied => exact absurd status applied
  refine ⟨draft, early, restorable, fun other again => ?_⟩
  cases Option.some.inj (found.symm.trans again)
  refine ⟨draft, open_, ?_⟩
  cases begun : stored.status.writesLive with
  | false => exact .early begun (early begun)
  | true => exact .live begun begun rfl rfl

-- What an undisturbed recovery comes to.
def Recovers (env : CheckoutEnv δ) (input : CheckoutInput) (now : String) (stored : CheckoutJournal) (disk : Disk δ)
    (outcome : Except String CheckoutJournal) (seen : Faulty (Disk δ)) : Prop :=
  ((stored.status = .localApplied → InPlace env stored disk ∧ Accepts env now stored.trackingUpdate disk.tracking) →
    seen.faults = [] ∧ ∃ final, outcome = .ok final ∧ (final.status = .completed ∨ final.status = .rolledBack) ∧
      seen.state.journals[input.operationId]? = some final) ∧
  (stored.status = .localApplied → InPlace env stored disk → ¬ Accepts env now stored.trackingUpdate disk.tracking →
    seen.faults = [] ∧ ∃ error, outcome = .error error ∧ seen.state = disk.setJournal { stored with error := some error })

theorem recover_safe (confirmed : Bool) (device : Faulty (Disk δ)) (here : Ready env input start device.state) :
    SafeAccess (Ready env input start) (recoverCheckoutOperation env confirmed input.operationId now) (fun outcome seen =>
      confirmed = true → device.faults = [] → ∀ stored, device.state.journals[input.operationId]? = some stored →
        Recovers env input now stored device.state outcome seen) device := by
  apply safe_check _ _ _ _ here
  rotate_left
  · intro error refused sure
    rw [(ensure_ok _ _ ()).mpr sure] at refused
    cases refused
  intro _ _
  apply safe_then _ _ (fun outcome seen => seen.state = device.state ∧ (device.faults = [] → seen.faults = []) ∧
    (∀ stored, outcome = .ok stored → device.state.journals[input.operationId]? = some stored) ∧
    (device.faults = [] → (∃ stored, device.state.journals[input.operationId]? = some stored) → ∃ stored, outcome = .ok stored))
  · apply safe_inspect _ _ _ here
    · intro stored rest found quiet
      exact ⟨rfl, quiet, fun _ same => Except.ok.inj same ▸ (found_ok _ _ _).mp found, fun _ _ => ⟨stored, rfl⟩⟩
    · intro error rest refused
      refine ⟨rfl, fun none_ => (refused none_).1, nofun, fun none_ => ?_⟩
      rintro ⟨stored, found⟩
      have lost := (refused none_).2
      rw [(found_ok _ _ _).mpr found] at lost
      cases lost
  rotate_left
  · rintro error seen _ ⟨_, _, _, read⟩ _ none_ stored found
    obtain ⟨_, impossible⟩ := read none_ ⟨stored, found⟩
    cases impossible
  rintro stored ⟨state, faults⟩ kept ⟨same, quiet, read, _⟩
  obtain rfl : device.state = state := same.symm
  have found := read stored rfl
  obtain ⟨draft, _⟩ := here stored found
  apply safe_check _ _ _ _ kept
  rotate_left
  · intro error refused
    rw [draft.valid] at refused
    cases refused
  intro _ _
  have back : stored.status ≠ .completed → stored.status ≠ .rolledBack → stored.status ≠ .localApplied →
      SafeAccess (Ready env input start)
        (rollbackCheckout stored (some "Recovered an incomplete checkout operation")) (fun outcome seen =>
          confirmed = true → device.faults = [] → ∀ other, device.state.journals[input.operationId]? = some other →
            Recovers env input now other device.state outcome seen) ⟨device.state, faults⟩ := by
    intro open_ rolled applied
    refine Prog.safe_mono _ _ _ _ (fun outcome seen _ ends _ none_ other again => ?_)
      (rollback_checkout_safe _ ⟨device.state, faults⟩ (stored_undoable stored device.state here found open_ rolled applied))
    cases Option.some.inj (found.symm.trans again)
    obtain ⟨silent, final, done, status, kept⟩ := ends (quiet none_)
    exact ⟨fun _ => ⟨silent, final, done, .inr status, kept⟩, fun same => absurd same applied⟩
  have idle : stored.status = .completed ∨ stored.status = .rolledBack →
      SafeAccess (Ready env input start) (pure stored) (fun outcome seen =>
          confirmed = true → device.faults = [] → ∀ other, device.state.journals[input.operationId]? = some other →
            Recovers env input now other device.state outcome seen) ⟨device.state, faults⟩ := by
    refine fun ended => safe_done _ _ _ here fun _ none_ other again => ?_
    cases Option.some.inj (found.symm.trans again)
    refine ⟨fun _ => ⟨quiet none_, stored, rfl, ended, found⟩, fun same => ?_⟩
    rcases ended with ended | ended <;> rw [same] at ended <;> cases ended
  cases status : stored.status with
  | completed => exact idle (.inl status)
  | rolledBack => exact idle (.inr status)
  | localApplied =>
      refine Prog.safe_mono _ _ _ _ (fun outcome seen _ ends _ none_ other again => ?_)
        (finish_safe now stored draft status ⟨device.state, faults⟩ found)
      cases Option.some.inj (found.symm.trans again)
      constructor
      · intro settled
        obtain ⟨place, accepts⟩ := settled status
        obtain ⟨silent, goes, _⟩ := ends (quiet none_) place
        obtain ⟨final, done, completed, kept⟩ := goes accepts
        exact ⟨silent, final, done, .inl completed, kept⟩
      · intro _ place refuses
        obtain ⟨silent, _, stops⟩ := ends (quiet none_) place
        exact ⟨silent, stops refuses⟩
  | preparing | backedUp | applying | validating | recoveryRequired =>
      refine back ?_ ?_ ?_ <;> rw [status] <;> nofun

end Recovery

end SessionSync.Checkout
