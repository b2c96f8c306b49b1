import SessionSync.Checkout.Applying
import SessionSync.Core.Sha256

set_option autoImplicit false

namespace SessionSync.Checkout

open SessionSync.Core Checked Local Tracking

section Stops

variable {δ : Type} {env : CheckoutEnv δ} {input : CheckoutInput} {start : Disk δ}

-- Nothing of an earlier operation lies where this one keeps its own.
structure Fresh (operationId : Uuid) (disk : Disk δ) : Prop where
  backup : ∀ slot, disk.entries (.backup operationId slot) = none
  failed : ∀ slot, disk.entries (.failed operationId slot) = none
  journal : disk.journals[operationId]? = none

section Preparing

-- There is no journal yet, and nothing but staged entries was written.
structure Unbegun (start : Disk δ) (operationId : Uuid) (disk : Disk δ) : Prop where
  early : Early start operationId disk
  journal : disk.journals[operationId]? = none

theorem unbegun_ready (disk : Disk δ) (unbegun : Unbegun start input.operationId disk) : Ready env input start disk := by
  intro stored found
  rw [unbegun.journal] at found
  cases found

theorem fresh_unbegun (operationId : Uuid) (fresh : Fresh operationId start) : Unbegun start operationId start :=
  ⟨⟨⟨fun _ => rfl, fun _ => rfl⟩, fresh.backup, fresh.failed⟩, fresh.journal⟩

theorem unbegun_staged (operationId place : Uuid) (slot : Slot) (entry : Option Entry) (disk : Disk δ)
    (unbegun : Unbegun start operationId disk) : Unbegun start operationId (disk.put (.staged place slot) entry) :=
  ⟨early_staged _ _ _ _ _ unbegun.early, unbegun.journal⟩

theorem directories_move (operationId : Uuid) (swaps : List CheckoutSwap) :
    Moves (fun disk after => Unbegun start operationId disk → Unbegun start operationId after)
      (Prog.forEach swaps (createStagedDirectory operationId)) := by
  apply Prog.acts_for_each
  intro swap
  refine keeps_touch (Unbegun start operationId) _ fun disk after ran unbegun => ?_
  cases ran
  exact unbegun_staged _ _ _ _ _ unbegun

-- The project state is swapped where there is one to write.
structure Prepared (env : CheckoutEnv δ) (input : CheckoutInput) (start : Disk δ) (threads : List ThreadBundle)
    (swaps : List CheckoutFileSwap) : Prop where
  slots : swaps = [] ∨ ∃ hash, swaps = [⟨⟨.globalState, true⟩, hash⟩] ∧ start.has (.live .globalState) = true
  target : ∀ bytes output, liveFile .globalState start = some bytes →
    env.projectState threads input.workspaceProjectRoots bytes = .ok (some output) →
    ∃ swap ∈ swaps, swap.slot = .globalState ∧ swap.expectedSha256 = digestBytes env.lib output

theorem live_file_same (slot : Slot) (disk : Disk δ) (same : disk.entries (.live slot) = start.entries (.live slot)) :
    liveFile slot disk = liveFile slot start := by rw [liveFile, liveFile, same]

theorem live_file_has (slot : Slot) (disk : Disk δ) (bytes : Bytes) (live : liveFile slot disk = some bytes) :
    disk.has (.live slot) = true := by
  rw [has_iff]
  intro none_
  rw [liveFile, none_] at live
  cases live

theorem prepare_safe (threads : List ThreadBundle) (device : Faulty (Disk δ)) (here : Unbegun start input.operationId device.state) :
    SafeAccess (Unbegun start input.operationId) (prepareProjectStateSwap env input.operationId threads input.workspaceProjectRoots)
      (fun outcome _ => ∀ swaps, outcome = .ok swaps → Prepared env input start threads swaps) device := by
  have same := live_file_same .globalState device.state (here.early.live .globalState)
  apply safe_probe _ _ _ _ here
  rw [same]
  cases live : liveFile .globalState start with
  | none =>
      refine safe_done _ _ _ here fun swaps made => ?_
      cases made
      exact ⟨.inl rfl, fun bytes output held => nomatch live.symm.trans held⟩
  | some bytes =>
      refine safe_check _ _ _ _ here (fun _ _ => ?_) fun _ _ => nofun
      refine safe_look _ _ _ _ here (fun output faults projected => ?_) fun _ _ => nofun
      have only : ∀ other written, liveFile .globalState start = some other →
          env.projectState threads input.workspaceProjectRoots other = .ok (some written) → output = some written := by
        intro other written held ran
        cases live.symm.trans held
        exact Except.ok.inj (projected.symm.trans ran)
      cases output with
      | none =>
          refine safe_done _ _ _ here fun swaps made => ?_
          cases made
          exact ⟨.inl rfl, fun other written held ran => nomatch only other written held ran⟩
      | some output =>
          refine safe_pause _ _ ⟨_, faults⟩ here (fun faults => ?_) fun _ _ => nofun
          refine safe_change _ _ _ ⟨_, faults⟩ here (fun after faults ran => ?_) fun _ _ => nofun
          simp only [bind_ok, pure_ok] at ran
          obtain ⟨_, _, rfl⟩ := ran
          refine safe_done _ _ _ (unbegun_staged _ _ _ _ _ here) fun swaps made => ?_
          cases made
          refine ⟨.inr ⟨_, rfl, live_file_has _ _ _ live⟩, fun other written held ran => ?_⟩
          cases only other written held ran
          exact ⟨_, List.mem_singleton_self _, rfl, rfl⟩

-- A part of a checkout before its first journal.
theorem unbegun_then {α β : Type} (prog : Access δ α) (next : α → Access δ β) (good : α → Prop) (device : Faulty (Disk δ))
    (begins : SafeAccess (Unbegun start input.operationId) prog (fun outcome _ => ∀ value, outcome = .ok value → good value) device)
    (goes : ∀ value seen, Unbegun start input.operationId seen.state → good value →
      SafeAccess (Ready env input start) (next value) (fun _ _ => True) seen) :
    SafeAccess (Ready env input start) (prog >>= next) (fun _ _ => True) device := by
  apply safe_then _ _ (fun outcome seen => Unbegun start input.operationId seen.state ∧ ∀ value, outcome = .ok value → good value)
  · apply safe_weaken (Unbegun start input.operationId) _ unbegun_ready
    exact Prog.safe_mono _ _ _ _ (fun _ _ kept left => ⟨kept, left⟩) begins
  · exact fun value seen _ left => goes value seen left.1 (left.2 value rfl)
  · exact fun _ _ _ _ => trivial

end Preparing

section Ending

-- The checkout is complete, and its journal says so.
structure Settled (env : CheckoutEnv δ) (input : CheckoutInput) (start disk : Disk δ) : Prop where
  stored : ∃ stored, disk.journals[input.operationId]? = some stored ∧ stored.status = .completed ∧ Draft env input start stored
  target : AtTarget env input start disk
  advanced : Advanced env input.trackingUpdate disk.tracking

theorem settled_ready (disk : Disk δ) (settled : Settled env input start disk) : Ready env input start disk := by
  intro other found
  obtain ⟨⟨stored, kept, status, draft⟩, target, advanced⟩ := settled
  cases Option.some.inj (kept.symm.trans found)
  refine ⟨draft, ?_⟩
  rw [Promise, status]
  exact ⟨target, advanced⟩

-- Only the home is looked at.
theorem target_home (disk after : Disk δ) (same : after.home = disk.home) (target : AtTarget env input start disk) :
    AtTarget env input start after := by
  obtain ⟨snapshot, result, expected, actual, read, scanned, quiet, wanted, hashed, alike, files⟩ := target
  refine ⟨snapshot, result, expected, actual, read, ?_, quiet, ?_, ?_, alike, fun bytes output live written => ?_⟩
  · rw [same, scanned]
  · rw [same, wanted]
  · rw [same, hashed]
  · have entry : after.entries (.live .globalState) = disk.entries (.live .globalState) :=
      congrArg (fun home => home.entries .globalState) same
    rw [fileHash, entry]
    exact files bytes output live written

theorem settled_put (place : Place) (apart : ∀ slot, Place.live slot ≠ place) (entry : Option Entry) (disk : Disk δ)
    (settled : Settled env input start disk) : Settled env input start (disk.put place entry) := by
  have same : (disk.put place entry).home = disk.home :=
    congrArg (fun entries => (⟨entries, disk.databases⟩ : Home δ)) (funext fun slot => put_elsewhere _ _ _ _ (apart slot))
  exact ⟨settled.stored, target_home _ _ same settled.target, settled.advanced⟩

theorem discard_moves (place : Place) (apart : ∀ slot, Place.live slot ≠ place) :
    Moves (fun disk after => Settled env input start disk → Settled env input start after) (discard place : Access δ Unit) := by
  refine Prog.acts_bind _ _ (Prog.acts_attempt _ ?_) fun _ => trivial
  refine keeps_touch (Settled env input start) _ fun disk after ran settled => ?_
  cases ran
  exact settled_put place apart none disk settled

theorem discard_all_moves (place : Slot → Place) (apart : ∀ slot other, Place.live slot ≠ place other) :
    Moves (fun disk after => Settled env input start disk → Settled env input start after) (discardAll place : Access δ Unit) :=
  Prog.acts_bind _ _ (discard_moves _ fun slot => apart slot _) fun _ =>
    Prog.acts_bind _ _ (discard_moves _ fun slot => apart slot _) fun _ => discard_moves _ fun slot => apart slot _

theorem discard_backups_moves (operationId : Uuid) (retain : Bool) :
    Moves (fun disk after => Settled env input start disk → Settled env input start after)
      (discardBackups operationId retain : Access δ Unit) := by
  unfold discardBackups
  split
  · trivial
  · refine Prog.acts_bind _ _ ?_ fun _ => discard_all_moves _ nofun
    refine Prog.acts_bind _ _ (Prog.acts_attempt _ ?_) fun _ => trivial
    refine keeps_touch (Settled env input start) _ fun disk after ran settled => ?_
    cases ran
    exact ⟨settled.stored, target_home _ _ rfl settled.target, settled.advanced⟩

theorem complete_safe {α : Type} (journal : CheckoutJournal) (report : α) (device : Faulty (Disk δ))
    (applied : Installed env input start journal device.state) :
    SafeAccess (Ready env input start) (do
      writeCheckoutJournal { journal with status := .completed }
      discardAll (.staged input.operationId)
      discardBackups input.operationId input.retainRecoveryBackup
      return report) (fun _ _ => True) device := by
  have draft := draft_status journal .completed journal.error applied.draft
  have here := applied_ready applied
  have settled : Settled env input start (device.state.setJournal { journal with status := .completed }) := by
    refine ⟨⟨_, draft.own ▸ set_lookup _, rfl, draft⟩, ?_, applied.draft.update ▸ applied.advanced⟩
    exact in_place_target { journal with status := .completed } _ draft applied.place
  apply safe_then _ _ _ _ _ (write_journal_safe _ draft.valid device here (ready_dropped _ _ draft.own) (settled_ready _ settled))
  · rintro _ ⟨state, faults⟩ _ ⟨_, written, _⟩
    obtain rfl := (written rfl).symm
    apply safe_weaken (Settled env input start) _ settled_ready
    refine Prog.safe_mono _ _ _ _ (fun _ _ _ _ => trivial) (safe_of_moves _ _ ?_ ⟨_, faults⟩ settled)
    exact Prog.acts_bind _ _ (discard_all_moves _ nofun) fun _ => Prog.acts_bind _ _ (discard_backups_moves _ _) fun _ => trivial
  · exact fun _ _ _ _ => trivial

theorem fail_checkout_safe (journal : CheckoutJournal) (error : String) (device : Faulty (Disk δ))
    (undoable : Undoable env input start journal device.state) :
    SafeAccess (Ready env input start) (failCheckout journal error) (fun _ _ => True) device := by
  apply safe_tries _ _ _ _ _ (rollback_checkout_safe (some error) device undoable)
  rintro (failed | _) seen kept _
  · exact safe_result _ _ _ kept trivial
  · exact safe_result _ _ _ kept trivial

end Ending

section Whole

-- The rollouts of a snapshot are objects of the repository: the home has no part in their hashes.
theorem hashes_unread (threads : List ThreadBundle) (unread : ∀ thread ∈ threads, thread.rollout.sourcePath = none)
    (home other : Home δ) (hashes : Std.ExtTreeMap String String) :
    semanticThreadHashes env home threads hashes = semanticThreadHashes env other threads hashes := by
  induction threads generalizing hashes with
  | nil => rfl
  | cons thread rest ih =>
      obtain ⟨own, others⟩ := List.forall_mem_cons.mp unread
      have same : semanticThread env home thread = semanticThread env other thread := by
        unfold semanticThread
        rw [own]
      unfold semanticThreadHashes
      rw [same]
      simp only [ih others]

section Draft

variable (journal : CheckoutJournal) (snapshot : LoadedSnapshot)
  (directories : journal.directorySwaps = [swapOf .sessions start, swapOf .archivedSessions start])
  (prepared : Prepared env input start snapshot.threads journal.fileSwaps)

include directories prepared

theorem first_draft (read : input.manifest = .ok snapshot) (own : journal.operationId = input.operationId)
    (hashed : ∀ home, semanticThreadHashes env home snapshot.threads ∅ = .ok journal.expectedThreadHashes)
    (asked : journal.trackingUpdate = input.trackingUpdate) (valid : validateCheckoutJournal journal = .ok ()) :
    Draft env input start journal := by
  refine ⟨own, valid, fun swap member => ?_, asked, snapshot, read, hashed, prepared.target⟩
  rw [CheckoutJournal.swaps, List.mem_append, List.mem_reverse, List.mem_reverse, directories] at member
  rcases member with file | directory
  · rcases prepared.slots with none_ | ⟨hash, only, present⟩
    · rw [none_] at file
      cases file
    · rw [only] at file
      cases List.mem_singleton.mp file
      exact present.symm
  · rcases List.mem_cons.mp directory with rfl | directory
    · rfl
    · cases List.mem_singleton.mp directory
      rfl

theorem slots_apart : (journal.directorySwaps.map (·.slot) ++ journal.fileSwaps.map (·.slot)).Nodup := by
  rw [directories]
  rcases prepared.slots with none_ | ⟨hash, only, _⟩
  · rw [none_]
    simp [swapOf]
  · rw [only]
    simp [swapOf]

end Draft

theorem first_journal_safe (journal : CheckoutJournal) (own : journal.operationId = input.operationId)
    (status : journal.status = .preparing) (none_ : journal.databaseBackups = [])
    (drafts : validateCheckoutJournal journal = .ok () → Draft env input start journal) (device : Faulty (Disk δ))
    (here : Unbegun start input.operationId device.state) :
    SafeAccess (Ready env input start) (writeCheckoutJournal journal) (fun outcome seen =>
      outcome = .ok () → Draft env input start journal ∧ Gathered start journal seen.state) device := by
  have ready : Ready env input start device.state := unbegun_ready _ here
  cases valid : validateCheckoutJournal journal with
  | error error =>
      apply safe_check _ _ _ _ ready
      · intro _ passes
        cases valid.symm.trans passes
      · exact fun _ _ => nofun
  | ok _ =>
      have draft := drafts valid
      have gathered : Gathered start journal (device.state.setJournal journal) :=
        ⟨set_lookup _, own ▸ early_journals _ _ here.early, none_ ▸ List.forall_mem_nil _⟩
      have before : journal.status.writesLive = false := by rw [status]; rfl
      have unfinished : journal.status ≠ .completed := by rw [status]; nofun
      have done := undoable_ready _ _ (gathered_undoable draft before unfinished gathered)
      refine Prog.safe_mono _ _ _ _ (fun outcome seen _ written ran => ⟨draft, ?_⟩)
        (write_journal_safe journal valid device ready (ready_dropped _ _ own) done)
      rw [written.2.1 ran]
      exact gathered

-- Wherever a checkout stops, its journal tells what can be done.
theorem checkout_safe (selects : SelectsListed env) (device : Faulty (Disk δ)) (fresh : Fresh input.operationId device.state) :
    SafeAccess (Ready env input device.state) (checkoutLocalSnapshot env input) (fun _ _ => True) device := by
  have here := fresh_unbegun input.operationId fresh
  have ready : Ready env input device.state device.state := unbegun_ready _ here
  refine safe_check _ _ _ _ ready (fun _ _ => ?_) fun _ _ => trivial
  refine safe_check _ _ _ _ ready (fun _ _ => ?_) fun _ _ => trivial
  refine safe_check _ _ _ _ ready (fun snapshot read => ?_) fun _ _ => trivial
  refine safe_look _ _ _ _ ready (fun current faults _ => ?_) fun _ _ => trivial
  refine safe_check _ _ _ ⟨_, faults⟩ ready (fun _ _ => ?_) fun _ _ => trivial
  refine safe_check _ _ _ ⟨_, faults⟩ ready (fun _ _ => ?_) fun _ _ => trivial
  refine safe_look _ _ _ ⟨_, faults⟩ ready (fun catalogs faults _ => ?_) fun _ _ => trivial
  refine safe_pause _ _ ⟨_, faults⟩ ready (fun faults => ?_) fun _ _ => trivial
  refine safe_pause _ _ ⟨_, faults⟩ ready (fun faults => ?_) fun _ _ => trivial
  refine safe_look _ _ _ ⟨_, faults⟩ ready (fun _ faults _ => ?_) fun _ _ => trivial
  refine safe_pause _ _ ⟨_, faults⟩ ready (fun faults => ?_) fun _ _ => trivial
  apply safe_probe _ _ _ ⟨_, faults⟩ ready
  apply unbegun_then _ _ (fun _ => True) ⟨_, faults⟩
  · refine Prog.safe_mono _ _ _ _ (fun _ _ _ _ _ _ => trivial) (safe_of_moves _ _ (directories_move _ _) ⟨_, faults⟩ here)
  intro _ seen unbegun _
  apply unbegun_then _ _ (Prepared env input device.state snapshot.threads) _ (prepare_safe snapshot.threads seen unbegun)
  intro swaps seen unbegun prepared
  apply unbegun_then _ _ (fun hashes => ∀ home, semanticThreadHashes env home snapshot.threads ∅ = .ok hashes)
  · apply safe_inspect _ _ _ unbegun
    · rintro hashes _ hashed _ _ ⟨⟩ home
      rw [← hashed]
      exact hashes_unread snapshot.threads snapshot.unread _ _ _
    · exact fun _ _ _ _ => nofun
  intro hashes seen unbegun hashed
  apply safe_then _ _ _ _ _ (first_journal_safe _ rfl rfl rfl (first_draft _ snapshot rfl prepared read rfl hashed rfl) seen unbegun)
  rotate_left
  · exact fun _ _ _ _ => trivial
  rintro _ seen _ written
  obtain ⟨draft, gathered⟩ := written rfl
  apply safe_tries _ _ _ _ _
    (run_checkout_safe draft selects input.now snapshot.toLocalSnapshot current.databasePaths catalogs rfl rfl
    hashed (slots_apart _ snapshot rfl prepared) seen gathered)
  rintro (⟨failed, error⟩ | journal) last _ left
  · exact fail_checkout_safe failed error last left
  · exact complete_safe journal _ last left

end Whole

-- A checkout that was cut off somewhere, and its recoveries, each cut off somewhere too.
inductive History (env : CheckoutEnv δ) (input : CheckoutInput) (start : Disk δ) : Disk δ → Prop where
  | stops (faults : List Bool) (seen : Faulty (Disk δ)) (cut : (checkoutLocalSnapshot env input).Cut ⟨start, faults⟩ seen) :
      History env input start seen.state
  | recovers (confirmed : Bool) (now : String) (disk : Disk δ) (faults : List Bool) (seen : Faulty (Disk δ))
      (before : History env input start disk)
      (cut : (recoverCheckoutOperation env confirmed input.operationId now).Cut ⟨disk, faults⟩ seen) :
      History env input start seen.state

theorem history_ready (selects : SelectsListed env) (fresh : Fresh input.operationId start) (disk : Disk δ)
    (history : History env input start disk) : Ready env input start disk := by
  induction history with
  | stops faults seen cut => exact ((Prog.safe_iff _ _ _).mp (checkout_safe selects ⟨start, faults⟩ fresh)).1 seen cut
  | recovers confirmed now disk faults seen _ cut ih =>
      exact ((Prog.safe_iff _ _ _).mp (recover_safe now confirmed ⟨disk, faults⟩ ih)).1 seen cut

-- The end of a recovery: all of the checkout, or nothing of it.
inductive Concluded (env : CheckoutEnv δ) (input : CheckoutInput) (start : Disk δ) (final : CheckoutJournal)
    (after : Disk δ) : Prop where
  | completed (status : final.status = .completed) (target : AtTarget env input start after)
      (advanced : Advanced env input.trackingUpdate after.tracking)
  | rolledBack (status : final.status = .rolledBack) (untouched : Untouched start after)

theorem ready_concluded (final : CheckoutJournal) (disk : Disk δ) (ready : Ready env input start disk)
    (found : disk.journals[input.operationId]? = some final) (ended : final.status = .completed ∨ final.status = .rolledBack) :
    Concluded env input start final disk := by
  obtain ⟨_, promise⟩ := ready final found
  rcases ended with status | status
  · rw [Promise, status] at promise
    exact .completed status promise.1 promise.2
  · rw [Promise, status] at promise
    exact .rolledBack status promise

-- A checkout that was stopped is recovered to its end or to its start, unless the tracking
-- database refuses what is in place.
theorem checkout_recovers (env : CheckoutEnv δ) (selects : SelectsListed env) (input : CheckoutInput) (start disk : Disk δ)
    (fresh : Fresh input.operationId start) (history : History env input start disk) (stored : CheckoutJournal)
    (found : disk.journals[input.operationId]? = some stored) (now : String) :
    ((stored.status = .localApplied → InPlace env stored disk ∧ Accepts env now stored.trackingUpdate disk.tracking) →
      ∃ final after, (recoverCheckoutOperation env true input.operationId now).exec ⟨disk, []⟩ = (.ok final, ⟨after, []⟩) ∧
        after.journals[input.operationId]? = some final ∧ Concluded env input start final after) ∧
    (stored.status = .localApplied → InPlace env stored disk → ¬ Accepts env now stored.trackingUpdate disk.tracking →
      ∃ error, (recoverCheckoutOperation env true input.operationId now).exec ⟨disk, []⟩ =
        (.error error, ⟨disk.setJournal { stored with error := some error }, []⟩)) := by
  have ready := history_ready selects fresh disk history
  obtain ⟨stops, ends⟩ := (Prog.safe_iff _ _ _).mp (recover_safe now true ⟨disk, []⟩ ready)
  have last := stops _ (Prog.cut_exec _ _)
  obtain ⟨⟨outcome, after, rest⟩, run⟩ : ∃ result,
    (recoverCheckoutOperation env true input.operationId now).exec ⟨disk, []⟩ = result := ⟨_, rfl⟩
  rw [run] at ends last ⊢
  obtain ⟨goes, refuses⟩ := ends rfl rfl stored found
  constructor
  · intro open_
    obtain ⟨rfl, final, rfl, ended, kept⟩ := goes open_
    exact ⟨final, after, rfl, kept, ready_concluded final after last kept ended⟩
  · intro status place rejected
    obtain ⟨rfl, error, rfl, rfl⟩ := refuses status place rejected
    exact ⟨error, rfl⟩

end Stops

namespace CheckoutSample

def thread (threadId : String) : ThreadBundle where
  schemaVersion := 1
  threadId := threadId
  title := "title"
  archived := false
  createdAtMs := none
  updatedAtMs := none
  modelProvider := none
  workspace := ⟨none, none⟩
  rollout := ⟨"", 1, "application/x-ndjson", none, none, none⟩
  relatedRecords := ⟨none, ∅⟩
  attachments := []

-- A database is the list of its rows, and a scan reports them.
def env : CheckoutEnv (List ThreadBundle) where
  lib := sampleLib
  targetCodexHome := "/codex"
  codexHomeKey := .ok "/codex"
  sameHome := fun right => .ok (right = "/codex")
  scan := fun home => .ok ⟨0, ["state"], (home.databases["state"]?).getD []⟩
  catalogDatabases := fun _ => .ok []
  normalized := fun _ _ _ => .error "no rollout"
  projectState := fun _ _ bytes => .ok (some (0 :: bytes))
  safeRolloutPath := fun thread => .ok (.sessions, thread.threadId)
  materialize := fun _ => .ok [1]
  selectPrimaryDatabase := fun _ paths => found paths.head? "target Codex home has no writable threads database"
  deleteThreads := fun _ => .ok []
  insertThreads := fun threads rows => .ok (rows ++ threads)
  invalidateCatalog := .ok

def remoteId : Uuid := BitVec.ofNat 128 (7 * 2 ^ 76 + 1)

def update : CheckoutTrackingUpdate := ⟨remoteId, remoteId, none, none, true⟩

def snapshot : LoadedSnapshot where
  schemaVersion := 1
  snapshotId := "snapshot"
  createdAt := "now"
  threads := [thread "new"]
  warningCount := 0
  unread := fun _ member => List.mem_singleton.mp member ▸ rfl

def input : CheckoutInput where
  confirmedCodexClosed := true
  operationId := 5
  manifest := .ok snapshot
  trackingUpdate := some update
  workspaceProjectRoots := []
  retainRecoveryBackup := false
  now := "now"

def entries : Place → Option Entry
  | .live .sessions => some (.directory (Std.ExtTreeMap.ofList [("old", ([7] : Bytes))]))
  | .live .globalState => some (.file [3])
  | _ => none

def home (tracking : TrackingDb) : Disk (List ThreadBundle) := ⟨entries, Std.ExtTreeMap.ofList [("state", [thread "old"])],
  fun _ => none, ∅, tracking⟩

-- Another device moved the head on.
def moved : TrackingDb := { TrackingDb.initialized with
  namespaceTracking := Std.ExtTreeMap.ofList [(("/codex", remoteId, remoteId), (⟨none, 0, 4, "before"⟩ : TrackingRow))] }

-- The checkout gets so far; then the system refuses two accesses, the second of them to its rollback.
def stopped (tracking : TrackingDb) (accesses : Nat) : Disk (List ThreadBundle) :=
  ((checkoutLocalSnapshot env input).exec ⟨home tracking, List.replicate accesses false ++ [true, true]⟩).2.state

def recovered (disk : Disk (List ThreadBundle)) : Except String CheckoutJournal × Faulty (Disk (List ThreadBundle)) :=
  (recoverCheckoutOperation env true input.operationId "later").exec ⟨disk, []⟩

theorem selects : SelectsListed env := fun _ _ _ chosen => List.mem_of_mem_head? ((found_ok _ _ _).mp chosen)

theorem fresh (tracking : TrackingDb) : Fresh input.operationId (home tracking) :=
  ⟨fun _ => rfl, fun _ => rfl, Std.ExtTreeMap.getElem?_empty⟩

theorem stopped_history (tracking : TrackingDb) (accesses : Nat) : History env input (home tracking) (stopped tracking accesses) :=
  .stops _ _ (Prog.cut_exec _ _)

-- Stopped while the project state is swapped: both directories are in place, and the file is in the backup directory.
theorem halfway_checked : ∃ journal ∈ (stopped TrackingDb.initialized 34).journals[input.operationId]?, journal.status = .applying ∧
    ((stopped TrackingDb.initialized 34).entries (.live .globalState)).isNone = true ∧
      (recovered (stopped TrackingDb.initialized 34)).1.toOption.map (·.status) = some .rolledBack := by decide +kernel

-- Stopped before the tracking database is asked: all else is done.
theorem applied_checked : ∀ run ∈ [(TrackingDb.initialized, true), (moved, false)],
    ∃ journal ∈ (stopped run.1 48).journals[input.operationId]?, journal.status = .localApplied ∧
      journal.trackingUpdate = some update ∧
      ((validateCheckoutJournalResult env journal).exec ⟨stopped run.1 48, []⟩).1.toOption.isSome = true ∧
      ((reconciled env "later" update).exec (stopped run.1 48).tracking).1.toOption.isSome = run.2 ∧
      (recovered (stopped run.1 48)).1.toOption.isSome = run.2 := by decide +kernel

theorem checked_place (journal : CheckoutJournal) (disk : Disk (List ThreadBundle))
    (checked : ((validateCheckoutJournalResult env journal).exec ⟨disk, []⟩).1.toOption.isSome = true) :
    InPlace env journal disk := by
  have comes := ((Prog.safe_iff _ _ _).mp (journal_result_comes env disk journal [])).2
  cases outcome : ((validateCheckoutJournalResult env journal).exec ⟨disk, []⟩).1 with
  | error error =>
      rw [outcome] at checked
      cases checked
  | ok _ =>
      rw [outcome] at comes
      exact comes.1

theorem taken_accepts (tracking : TrackingDb) :
    Accepts env "later" (some update) tracking ↔ ((reconciled env "later" update).exec tracking).1.toOption.isSome = true := by
  obtain ⟨⟨outcome, after⟩, run⟩ : ∃ result, (reconciled env "later" update).exec tracking = result := ⟨_, rfl⟩
  rw [run]
  constructor
  · intro accepts
    obtain ⟨record, later, ran⟩ := accepts update rfl
    cases run.symm.trans ran
    rfl
  · rintro taken _ ⟨⟩
    cases outcome with
    | error error => cases taken
    | ok record => exact ⟨record, after, run⟩

theorem halfway_stop : ∃ disk journal, History env input (home TrackingDb.initialized) disk ∧
    disk.journals[input.operationId]? = some journal ∧ journal.status = .applying ∧ disk.entries (.live .globalState) = none ∧
    (recovered disk).1.toOption.map (·.status) = some .rolledBack := by
  obtain ⟨journal, stored, status, gone, ends⟩ := halfway_checked
  exact ⟨_, journal, stopped_history _ _, stored, status, Option.isNone_iff_eq_none.mp gone, ends⟩

theorem applied_stop (tracking : TrackingDb) (taken : Bool)
    (listed : (tracking, taken) ∈ [(TrackingDb.initialized, true), (moved, false)]) :
    ∃ disk journal, History env input (home tracking) disk ∧ disk.journals[input.operationId]? = some journal ∧
      journal.status = .localApplied ∧ InPlace env journal disk ∧
      (Accepts env "later" journal.trackingUpdate disk.tracking ↔ taken = true) ∧
      (recovered disk).1.toOption.isSome = taken := by
  obtain ⟨journal, stored, status, asked, checked, accepts, ends⟩ := applied_checked _ listed
  refine ⟨_, journal, stopped_history _ _, stored, status, checked_place _ _ checked, ?_, ends⟩
  rw [asked, taken_accepts, accepts]

end CheckoutSample

open CheckoutSample in
-- Where the tracking database refuses what is in place, the checkout stays as it is.
theorem refused_checkout_stays : ¬∀ (env : CheckoutEnv (List ThreadBundle)) (input : CheckoutInput)
    (start disk : Disk (List ThreadBundle)), SelectsListed env → Fresh input.operationId start → History env input start disk →
    ∀ stored, disk.journals[input.operationId]? = some stored → ∀ now, ∃ final after,
      (recoverCheckoutOperation env true input.operationId now).exec ⟨disk, []⟩ = (.ok final, ⟨after, []⟩) ∧
        Concluded env input start final after := by
  intro claim
  obtain ⟨disk, journal, history, stored, _, _, _, ends⟩ := applied_stop moved false (by simp)
  obtain ⟨final, after, run, _⟩ := claim env input _ disk selects (fresh _) history journal stored "later"
  rw [recovered, run] at ends
  cases ends

open CheckoutSample in
-- A checkout that stops halfway is rolled back, one that stops at its tracking update goes on.
theorem stopped_checkouts_recover :
    (∃ disk final after, History env input (home TrackingDb.initialized) disk ∧ disk.entries (.live .globalState) = none ∧
      recovered disk = (.ok final, ⟨after, []⟩) ∧ final.status = .rolledBack ∧ Untouched (home TrackingDb.initialized) after) ∧
    (∃ disk journal final after, History env input (home TrackingDb.initialized) disk ∧ journal.status = .localApplied ∧
      disk.journals[input.operationId]? = some journal ∧ recovered disk = (.ok final, ⟨after, []⟩) ∧
      Concluded env input (home TrackingDb.initialized) final after) ∧
    ∃ disk journal error, History env input (home moved) disk ∧ disk.journals[input.operationId]? = some journal ∧
      recovered disk = (.error error, ⟨disk.setJournal { journal with error := some error }, []⟩) := by
  refine ⟨?_, ?_, ?_⟩
  · obtain ⟨disk, journal, history, stored, status, gone, ends⟩ := halfway_stop
    obtain ⟨goes, _⟩ := checkout_recovers env selects input _ disk (fresh _) history journal stored "later"
    obtain ⟨final, after, run, _, concluded⟩ := goes fun applied => nomatch status.symm.trans applied
    have rolled : final.status = .rolledBack := by
      rw [recovered, run] at ends
      exact Option.some.inj ends
    refine ⟨disk, final, after, history, gone, run, rolled, ?_⟩
    cases concluded with
    | completed status => cases status.symm.trans rolled
    | rolledBack _ untouched => exact untouched
  · obtain ⟨disk, journal, history, stored, status, place, accepts, _⟩ := applied_stop TrackingDb.initialized true (by simp)
    obtain ⟨goes, _⟩ := checkout_recovers env selects input _ disk (fresh _) history journal stored "later"
    obtain ⟨final, after, run, _, concluded⟩ := goes fun _ => ⟨place, accepts.mpr rfl⟩
    exact ⟨disk, journal, final, after, history, status, stored, run, concluded⟩
  · obtain ⟨disk, journal, history, stored, status, place, accepts, _⟩ := applied_stop moved false (by simp)
    obtain ⟨_, refuses⟩ := checkout_recovers env selects input _ disk (fresh _) history journal stored "later"
    obtain ⟨error, run⟩ := refuses status place fun taken => nomatch accepts.mp taken
    exact ⟨disk, journal, error, history, stored, run⟩

end SessionSync.Checkout
