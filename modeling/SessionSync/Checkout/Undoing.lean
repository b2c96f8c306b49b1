import SessionSync.Checkout.Rollback

set_option autoImplicit false

namespace SessionSync.Checkout

open SessionSync.Core Checked Local Tracking

variable {δ : Type}

-- The home holds the threads of the snapshot, and the project state that goes with them.
def AtTarget (env : CheckoutEnv δ) (input : CheckoutInput) (start disk : Disk δ) : Prop :=
  ∃ snapshot result expected actual, input.manifest = .ok snapshot ∧ env.scan disk.home = .ok result ∧ result.warnings = 0 ∧
    semanticThreadHashes env disk.home snapshot.threads ∅ = .ok expected ∧
    semanticThreadHashes env disk.home result.threads ∅ = .ok actual ∧ actual.toList = expected.toList ∧
    ∀ bytes output, liveFile .globalState start = some bytes →
      env.projectState snapshot.threads input.workspaceProjectRoots bytes = .ok (some output) →
      fileHash env .globalState disk = .ok (digestBytes env.lib output)

-- The head that is to be tracked is tracked, one generation further.
def Advanced (env : CheckoutEnv δ) (asked : Option CheckoutTrackingUpdate) (tracking : TrackingDb) : Prop :=
  ∀ update, asked = some update → ∃ home next row, env.codexHomeKey = .ok home ∧
    nextGeneration update.expectedGeneration = .ok next ∧
    tracking.namespaceTracking[(home, update.remoteId, update.namespaceId)]? = some row ∧ row.generation = next.2 ∧
    row.integratedHead = update.integratedHead ∧
    (update.activateNamespace = true → isActive tracking (home, update.remoteId, update.namespaceId))

-- What all journals of the operation have in common.
structure Draft (env : CheckoutEnv δ) (input : CheckoutInput) (start : Disk δ) (journal : CheckoutJournal) : Prop where
  own : journal.operationId = input.operationId
  valid : validateCheckoutJournal journal = .ok ()
  drawn : Drawn start journal.swaps
  update : journal.trackingUpdate = input.trackingUpdate
  target : ∃ snapshot, input.manifest = .ok snapshot ∧
    (∀ home, semanticThreadHashes env home snapshot.threads ∅ = .ok journal.expectedThreadHashes) ∧
    ∀ bytes output, liveFile .globalState start = some bytes →
      env.projectState snapshot.threads input.workspaceProjectRoots bytes = .ok (some output) →
      ∃ swap ∈ journal.fileSwaps, swap.slot = .globalState ∧ swap.expectedSha256 = digestBytes env.lib output

-- What the journal on the disk says of the home.
def Promise (env : CheckoutEnv δ) (input : CheckoutInput) (start : Disk δ) (stored : CheckoutJournal) (disk : Disk δ) : Prop :=
  match stored.status with
  | .preparing | .backedUp => Early start stored.operationId disk
  | .applying | .validating | .recoveryRequired => Restorable start stored disk
  | .localApplied => True
  | .completed => AtTarget env input start disk ∧ Advanced env input.trackingUpdate disk.tracking
  | .rolledBack => Untouched start disk

-- The states in which the operation may stop.
def Ready (env : CheckoutEnv δ) (input : CheckoutInput) (start disk : Disk δ) : Prop :=
  ∀ stored, disk.journals[input.operationId]? = some stored → Draft env input start stored ∧ Promise env input start stored disk

-- How the journal on the disk stands to the one in memory.
inductive Trails (start : Disk δ) (stored journal : CheckoutJournal) (disk : Disk δ) : Prop where
  | early (before : stored.status.writesLive = false) (untouched : Early start stored.operationId disk)
  | live (begun : stored.status.writesLive = true) (also : journal.status.writesLive = true) (swaps : stored.swaps = journal.swaps)
      (backups : stored.databaseBackups = journal.databaseBackups)

-- What a rollback of the journal in memory starts from.
structure Undoable (env : CheckoutEnv δ) (input : CheckoutInput) (start : Disk δ) (journal : CheckoutJournal) (disk : Disk δ) :
    Prop where
  draft : Draft env input start journal
  early : journal.status.writesLive = false → Early start journal.operationId disk
  restorable : journal.status.writesLive = true → Restorable start journal disk
  stored : ∀ stored, disk.journals[input.operationId]? = some stored →
    Draft env input start stored ∧ stored.status ≠ .completed ∧ Trails start stored journal disk

def Disk.dropJournal (operationId : Uuid) (disk : Disk δ) : Disk δ := { disk with journals := disk.journals.erase operationId }

def Disk.setJournal (journal : CheckoutJournal) (disk : Disk δ) : Disk δ :=
  { disk with journals := disk.journals.insert journal.operationId journal }

section Journals

variable {start disk : Disk δ}

theorem dropped_lookup (operationId : Uuid) : (disk.dropJournal operationId).journals[operationId]? = none :=
  (Keyed.lookup_erase _ _ _).trans (if_pos rfl)

theorem set_lookup (journal : CheckoutJournal) : (disk.setJournal journal).journals[journal.operationId]? = some journal :=
  (Keyed.lookup_insert _ _ _ _).trans (if_pos rfl)

theorem set_dropped (journal : CheckoutJournal) :
    (disk.dropJournal journal.operationId).setJournal journal = disk.setJournal journal := by
  have again : (disk.journals.erase journal.operationId).insert journal.operationId journal =
      disk.journals.insert journal.operationId journal := by
    apply Std.ExtTreeMap.ext_getElem?
    intro id
    rw [Keyed.lookup_insert, Keyed.lookup_insert, Keyed.lookup_erase]
    by_cases same : id = journal.operationId
    · rw [if_pos same, if_pos same]
    · rw [if_neg same, if_neg same, if_neg same]
  exact congrArg (fun journals => { disk with journals := journals }) again

-- No journal is part of what the others speak of.
theorem early_journals (operationId : Uuid) (journals : Std.ExtTreeMap Uuid CheckoutJournal) (early : Early start operationId disk) :
    Early start operationId { disk with journals := journals } := ⟨⟨early.live, early.databases⟩, early.backup, early.failed⟩

theorem restorable_journals (journal : CheckoutJournal) (journals : Std.ExtTreeMap Uuid CheckoutJournal)
    (restorable : Restorable start journal disk) : Restorable start journal { disk with journals := journals } :=
  ⟨restorable.position, restorable.outside, restorable.databases, restorable.copies⟩

-- Of a journal only the swaps and the copies matter.
theorem restorable_alike (journal other : CheckoutJournal) (own : other.operationId = journal.operationId)
    (swaps : other.swaps = journal.swaps) (backups : other.databaseBackups = journal.databaseBackups)
    (restorable : Restorable start journal disk) : Restorable start other disk := by
  obtain ⟨positions, outside, databases, copies⟩ := restorable
  refine ⟨?_, ?_, ?_, ?_⟩
  · rw [own]
    exact positions
  · rw [swaps]
    exact outside
  · rw [backups]
    exact databases
  · rw [own, backups]
    exact copies

theorem draft_status {env : CheckoutEnv δ} {input : CheckoutInput} (journal : CheckoutJournal) (status : CheckoutStatus)
    (error : Option String) (draft : Draft env input start journal) :
    Draft env input start { journal with status := status, error := error } :=
  ⟨draft.own, draft.valid, draft.drawn, draft.update, draft.target⟩

end Journals

theorem write_journal_safe {crash : Disk δ → Prop} (journal : CheckoutJournal) (valid : validateCheckoutJournal journal = .ok ())
    (device : Faulty (Disk δ)) (here : crash device.state) (gone : crash (device.state.dropJournal journal.operationId))
    (done : crash (device.state.setJournal journal)) :
    SafeAccess crash (writeCheckoutJournal journal) (fun outcome seen =>
      (device.faults = [] → seen.faults = [] ∧ outcome = .ok ()) ∧ (outcome = .ok () → seen.state = device.state.setJournal journal) ∧
        (outcome ≠ .ok () → seen.state = device.state ∨ seen.state = device.state.dropJournal journal.operationId)) device := by
  apply safe_check _ _ _ _ here
  · exact fun _ _ => safe_atomic _ _ _ device (set_dropped journal) here gone done
  · intro error refused
    rw [valid] at refused
    cases refused

section Rollback

variable {env : CheckoutEnv δ} {input : CheckoutInput} {start : Disk δ}

theorem ready_dropped (disk : Disk δ) (operationId : Uuid) (own : operationId = input.operationId) :
    Ready env input start (disk.dropJournal operationId) := by
  intro stored found
  rw [← own, dropped_lookup] at found
  cases found

theorem ready_set (journal : CheckoutJournal) (disk : Disk δ) (draft : Draft env input start journal)
    (promise : Promise env input start journal (disk.setJournal journal)) : Ready env input start (disk.setJournal journal) := by
  intro stored found
  rw [← draft.own, set_lookup] at found
  cases found
  exact ⟨draft, promise⟩

-- Before a journal says that the checkout is complete it promises no more than this.
theorem promise_early (stored : CheckoutJournal) (disk : Disk δ) (unfinished : stored.status ≠ .completed)
    (before : stored.status.writesLive = false) (early : Early start stored.operationId disk) :
    Promise env input start stored disk := by
  rw [Promise]
  cases status : stored.status with
  | preparing => exact early
  | backedUp => exact early
  | rolledBack => exact early.toUntouched
  | completed => exact absurd status unfinished
  | applying | validating | localApplied | recoveryRequired =>
      rw [status] at before
      cases before

theorem promise_live (stored : CheckoutJournal) (disk : Disk δ) (begun : stored.status.writesLive = true)
    (restorable : Restorable start stored disk) : Promise env input start stored disk := by
  rw [Promise]
  cases status : stored.status with
  | applying | validating | recoveryRequired => exact restorable
  | localApplied => trivial
  | preparing | backedUp | rolledBack | completed =>
      rw [status] at begun
      cases begun

-- Nothing was moved yet, or so the journal on the disk says.
def StillEarly (stored : Option CheckoutJournal) (journal : CheckoutJournal) : Prop :=
  journal.status.writesLive = false ∨ ∃ kept, stored = some kept ∧ kept.status.writesLive = false

variable {journal : CheckoutJournal} {disk : Disk δ} (undoable : Undoable env input start journal disk)

include undoable

theorem undoable_rolling : Rolling start (StillEarly disk.journals[input.operationId]? journal) journal.status.writesLive
    disk.journals[input.operationId]? journal [] disk := by
  refine ⟨by rw [undoable.draft.own], fun early => ?_, undoable.restorable, fun _ => List.forall_mem_nil _⟩
  rcases early with early | ⟨kept, found, early⟩
  · exact undoable.early early
  · obtain ⟨draft, _, trails⟩ := undoable.stored kept found
    cases trails with
    | early _ untouched =>
        rw [undoable.draft.own, ← draft.own]
        exact untouched
    | live begun =>
        rw [early] at begun
        cases begun

theorem rolling_ready (seen : Disk δ) (rolling : Rolling start (StillEarly disk.journals[input.operationId]? journal)
    journal.status.writesLive disk.journals[input.operationId]? journal [] seen) : Ready env input start seen := by
  intro stored found
  rw [← undoable.draft.own, rolling.stored] at found
  obtain ⟨draft, unfinished, trails⟩ := undoable.stored stored found
  have same : stored.operationId = journal.operationId := draft.own.trans undoable.draft.own.symm
  refine ⟨draft, ?_⟩
  cases trails with
  | early before =>
      have early := rolling.early (.inr ⟨stored, found, before⟩)
      exact promise_early stored seen unfinished before (same ▸ early)
  | live begun also swaps backups =>
      exact promise_live stored seen begun (restorable_alike journal stored same swaps backups (rolling.restorable also))

-- All that was begun is put back.
omit undoable in
theorem rolled_untouched (seen : Disk δ) (rolling : Rolling start (StillEarly disk.journals[input.operationId]? journal)
    journal.status.writesLive disk.journals[input.operationId]? journal (journal.swaps.map (·.slot)) seen)
    (databases : journal.status.writesLive = true →
      ∀ path, path ∈ journal.databaseBackups.map (·.target) → seen.databases[path]? = start.databases[path]?) :
    Untouched start seen := by
  cases started : journal.status.writesLive with
  | false => exact (rolling.early (.inl started)).toUntouched
  | true =>
      have restorable := rolling.restorable started
      constructor
      · intro slot
        by_cases member : slot ∈ journal.swaps.map (·.slot)
        · exact (rolling.done started slot member).2
        · exact restorable.outside slot member
      · intro path
        by_cases member : path ∈ journal.databaseBackups.map (·.target)
        · exact databases started path member
        · exact restorable.databases path member


-- The end of a rollback: what it came to is written down.
omit undoable in
theorem settle_rollback_safe (final : CheckoutJournal) (failures : List String) (text : String) (device : Faulty (Disk δ))
    (draft : Draft env input start final) (here : Ready env input start device.state)
    (status : final.status = if failures = [] then .rolledBack else .recoveryRequired)
    (clean : failures = [] → Untouched start device.state) (left : failures ≠ [] → Restorable start final device.state) :
    SafeAccess (Ready env input start) (do
      writeCheckoutJournal final
      Prog.ofExcept (ensure (failures = []) text)
      return final) (fun outcome seen => device.faults = [] → failures = [] → seen.faults = [] ∧
        ∃ final, outcome = .ok final ∧ final.status = .rolledBack ∧ seen.state.journals[input.operationId]? = some final)
      device := by
  have promise : Promise env input start final (device.state.setJournal final) := by
    by_cases none_ : failures = []
    · rw [Promise, status, if_pos none_]
      exact ⟨(clean none_).live, (clean none_).databases⟩
    · rw [Promise, status, if_neg none_]
      exact restorable_journals final _ (left none_)
  apply safe_then _ _ _ _ _
    (write_journal_safe final draft.valid device here (ready_dropped _ _ draft.own) (ready_set _ _ draft promise))
  · intro _ seen kept written
    apply safe_check _ _ _ _ kept
    · intro _ passes
      have none_ : failures = [] := (ensure_ok _ _ _).mp passes
      refine safe_done _ _ _ kept fun calm _ => ⟨(written.1 calm).1, final, rfl, status.trans (if_pos none_), ?_⟩
      rw [written.2.1 rfl, ← draft.own]
      exact set_lookup final
    · intro error refused _ none_
      rw [(ensure_ok _ _ ()).mpr none_] at refused
      cases refused
  · exact fun error seen _ written calm => absurd (written.1 calm).2 nofun

-- A rollback keeps every stop recoverable, and undisturbed it goes through.
omit undoable in
theorem rollback_checkout_safe (error : Option String) (device : Faulty (Disk δ))
    (undoable : Undoable env input start journal device.state) :
    SafeAccess (Ready env input start) (rollbackCheckout journal error) (fun outcome seen => device.faults = [] →
      seen.faults = [] ∧ ∃ final, outcome = .ok final ∧ final.status = .rolledBack ∧
        seen.state.journals[input.operationId]? = some final) device := by
  have rolls := rolling_ready undoable
  have rolling := undoable_rolling undoable
  have here := rolls _ rolling
  have swept : journal.swaps.map (·.slot) ++ [] = journal.swaps.map (·.slot) := List.append_nil _
  apply safe_then _ _ _ _ _ (safe_idle device here)
  rotate_left
  · exact fun error seen _ left none_ => absurd (left.2 none_).2 nofun
  rintro _ ⟨state, faults⟩ _ ⟨rfl, calm⟩
  apply safe_total _ _ _ _ _
    (rollback_swaps_safe rolls journal.swaps undoable.draft.drawn (fun _ => id) [] ⟨device.state, faults⟩ rolling)
  rintro swaps seen _ ⟨rolled, swapped, idle, quiet⟩
  rw [swept] at swapped
  have begun : (if journal.status.writesLive = true then journal.databaseBackups else []) ≠ [] → journal.status.writesLive = true :=
    fun some_ => by_contra fun off => some_ (if_neg off)
  have inside : ∀ backup ∈ (if journal.status.writesLive = true then journal.databaseBackups else []),
      backup ∈ journal.databaseBackups := by
    split
    · exact fun _ => id
    · exact List.forall_mem_nil _
  have quietly : device.faults = [] → seen.faults = [] ∧ swaps = [] := fun none_ => quiet (calm none_).1
  by_cases whole : swaps = []
  · apply safe_total _ _ _ _ _ (restore_databases_safe rolls _ inside begun _ [] seen (swapped whole) (List.forall_mem_nil _))
    rintro databases last kept ⟨final, restored, still, silent⟩
    rw [whole, List.nil_append]
    refine Prog.safe_mono _ _ _ _ ?_ (settle_rollback_safe _ databases _ last (draft_status journal _ _ undoable.draft) kept rfl
      (fun none_ => ?_) fun some_ => ?_)
    · exact fun outcome seen _ settled none_ => settled (silent (quietly none_).1).1 (silent (quietly none_).1).2
    · refine rolled_untouched last.state final fun on path member => restored none_ path (.inl ?_)
      rw [if_pos on]
      exact member
    · exact restorable_alike journal _ rfl rfl rfl (final.restorable (by_contra fun off => some_ (still (if_neg off))))
  · apply safe_total _ _ _ _ _ (restore_databases_safe rolls _ inside begun [] [] seen rolled (List.forall_mem_nil _))
    rintro databases last kept ⟨final, _⟩
    have failed : swaps ++ databases ≠ [] := fun none_ => whole (List.append_eq_nil_iff.mp none_).1
    refine Prog.safe_mono _ _ _ _ ?_ (settle_rollback_safe _ (swaps ++ databases) _ last (draft_status journal _ _ undoable.draft)
      kept rfl (fun none_ => absurd none_ failed) fun _ => restorable_alike journal _ rfl rfl rfl (final.restorable ?_))
    · exact fun outcome seen _ _ none_ => absurd (quietly none_).2 whole
    · exact by_contra fun off => whole (idle (Bool.eq_false_iff.mpr off))

end Rollback

end SessionSync.Checkout
