import SessionSync.Core.Sha256
import SessionSync.Import.Recovery

set_option autoImplicit false

namespace SessionSync.Import

open SessionSync.Core Checked Local Storage Checkout Rollout

section Exact

variable {δ : Type} (env : ImportEnv δ)

section Preflight

variable {first : ImportDisk δ}

-- What the list of prepared threads promises, given the places that are taken.
structure Places (disk : Disk δ) (taken : List RolloutPath) (prepared : List PreparedThread) : Prop where
  absent : ∀ thread ∈ prepared, rolloutAt thread.targetPath disk = none
  free : ∀ thread ∈ prepared, thread.targetPath ∉ taken
  nodup : (prepared.map PreparedThread.targetPath).Nodup

theorem places_nil (disk : Disk δ) (taken : List RolloutPath) : Places disk taken [] :=
  ⟨fun _ member => absurd member List.not_mem_nil, fun _ member => absurd member List.not_mem_nil, List.nodup_nil⟩

theorem places_cons (disk : Disk δ) (taken : List RolloutPath) (thread : PreparedThread) (rest : List PreparedThread)
    (absent : rolloutAt thread.targetPath disk = none) (free : thread.targetPath ∉ taken)
    (places : Places disk (thread.targetPath :: taken) rest) : Places disk taken (thread :: rest) where
  absent := List.forall_mem_cons.mpr ⟨absent, places.absent⟩
  free := List.forall_mem_cons.mpr ⟨free, fun other member inside => places.free other member (List.mem_cons_of_mem _ inside)⟩
  nodup := by
    rw [List.map_cons, List.nodup_cons]
    refine ⟨fun member => ?_, places.nodup⟩
    obtain ⟨other, inside, same⟩ := List.mem_map.mp member
    exact places.free other inside (same ▸ List.mem_cons_self)

theorem prepare_thread_ok (input : ImportInput) (contents : Option Contents) (taken : List RolloutPath) (thread : ThreadBundle)
    (disk : Disk δ) (prepared : PreparedThread) (done : prepareThread env input contents taken thread disk = .ok prepared) :
    rolloutAt prepared.targetPath disk = none ∧ prepared.targetPath ∉ taken := by
  simp only [prepareThread, bind_ok, ensure_ok, pure_ok] at done
  obtain ⟨path, _, _, absent, _, free, _, _, _, _, rfl⟩ := done
  exact ⟨absent, free⟩

theorem prepare_threads_safe (input : ImportInput) (contents : Option Contents) (existing threads : List ThreadBundle)
    (taken : List RolloutPath) (device : Faulty (ImportDisk δ)) (here : device.state = first) :
    SafeAccess (· = first) (prepareThreads env input contents existing threads taken)
      (fun outcome _ => ∀ prepared, outcome = .ok prepared → Places first.disk taken prepared) device := by
  induction threads generalizing taken device with
  | nil =>
      refine safe_done _ _ _ here fun prepared same => ?_
      cases same
      exact places_nil _ _
  | cons thread rest ih =>
      apply safe_pass _ _ _ _ _ here (moves_fallible fun _ => id)
      · intro _ seen unmoved
        split
        · apply safe_check _ _ _ _ unmoved
          · exact fun _ _ => ih taken seen unmoved
          · exact fun _ _ _ => nofun
        · apply safe_then _ _ (fun outcome after => after.state = first ∧ ∀ prepared, outcome = .ok prepared →
            rolloutAt prepared.targetPath first.disk = none ∧ prepared.targetPath ∉ taken)
          · apply safe_inspect _ _ _ unmoved
            · intro prepared left done _
              refine ⟨unmoved, fun other same => ?_⟩
              cases same
              rw [unmoved] at done
              exact prepare_thread_ok env input contents taken thread first.disk prepared done
            · exact fun error left _ => ⟨unmoved, fun _ => nofun⟩
          · intro prepared after stays ⟨_, own⟩
            obtain ⟨absent, free⟩ := own prepared rfl
            apply safe_then _ _ _ _ _ (ih (prepared.targetPath :: taken) after stays)
            · intro others last kept places
              refine safe_done _ _ _ kept fun all same => ?_
              cases same
              exact places_cons first.disk taken prepared others absent free (places others rfl)
            · exact fun error _ _ _ _ => no_value error _
          · exact fun error _ _ _ _ => no_value error _
      · exact fun _ _ _ _ => nofun

theorem preflight_safe (input : ImportInput) (device : Faulty (ImportDisk δ)) (here : device.state = first) :
    SafeAccess (· = first) (preflight env input)
      (fun outcome _ => ∀ found, outcome = .ok found → Vacant first.disk found.prepared) device := by
  apply safe_check _ _ _ _ here
  · intro _ _
    apply safe_check _ _ _ _ here
    · intro manifest _
      apply safe_pass _ _ _ _ _ here (moves_fallible fun _ => id)
      · intro _ seen unmoved
        apply safe_pass _ _ _ _ _ unmoved (moves_inspect (fun _ => id) _)
        · intro report after stays
          apply safe_then _ _ _ _ _ (prepare_threads_safe env input _ report.threads _ [] after stays)
          · intro prepared last kept places
            obtain ⟨absent, _, nodup⟩ := places prepared rfl
            apply safe_pass _ _ _ _ _ kept (moves_fallible fun _ => id)
            · intro _ one same
              apply safe_pass _ _ _ _ _ same (moves_fallible fun _ => id)
              · intro _ two still
                refine safe_done _ _ _ still fun found equal => ?_
                cases equal
                exact ⟨absent, nodup⟩
              · exact fun _ _ _ _ => nofun
            · exact fun _ _ _ _ => nofun
          · exact fun error _ _ _ _ => no_value error _
        · exact fun _ _ _ _ => nofun
      · exact fun _ _ _ _ => nofun
    · exact fun _ _ _ => nofun
  · exact fun _ _ _ => nofun

end Preflight

structure NewOperation (operationId : Uuid) (store : ImportStore δ) : Prop where
  unlisted : store.manifests operationId = none
  unwritten : store.journals[operationId]? = none

section Runs

variable {start : Disk δ} {prepared : List PreparedThread} {operationId : Uuid}

theorem early_new (state : ImportDisk δ) (unused : NewOperation operationId state.store) (home : state.disk = start) :
    Early start prepared operationId state where
  home := home
  unlisted := unused.unlisted
  planned := by
    intro stored held
    rw [unused.unwritten] at held
    cases held

theorem early_safe {ε α : Type} (prog : Prog (Faulty (ImportDisk δ)) ε α) (moves : Moves (KeepsEarly start prepared operationId) prog)
    (device : Faulty (ImportDisk δ)) (early : Early start prepared operationId device.state) :
    SafeAccess (Phase start prepared operationId) prog (fun _ seen => Early start prepared operationId seen.state) device := by
  have safe := safe_of_moves (Early start prepared operationId) prog moves device early
  rw [SafeAccess, Prog.safe_iff] at safe ⊢
  exact ⟨fun seen cut => .inl (safe.1 seen cut), safe.2⟩

theorem installing_start (target : String) (disk : Disk δ) (home : disk = start) : Installing start prepared target disk :=
  home ▸ ⟨fun _ _ => rfl, fun _ _ => rfl⟩

-- The backup is there before anything is written to the home.
theorem back_up_safe (target : String) (journal : OperationJournal) (own : journal.operationId = operationId)
    (same : journal.plannedRollouts = prepared.map PreparedThread.planned) (device : Faulty (ImportDisk δ))
    (early : Early start prepared operationId device.state) :
    SafeAccess (Phase start prepared operationId) (backUpImport target journal)
      (fun outcome seen => ∀ value, outcome = .ok value → Backed start prepared operationId target seen.state) device := by
  apply safe_then _ _ _ _ _ (early_safe _ (moves_fallible early_refl) device early)
  · intro _ one _ first
    apply safe_then _ _ (fun outcome seen => ∀ value, outcome = .ok value → Early start prepared operationId seen.state ∧
      ∃ database, seen.state.store.copies operationId = some database ∧ start.databases[target]? = some database)
    · apply safe_touch _ _ _ (.inl first)
      · intro after rest ran _
        simp only [bind_ok, found_ok, pure_ok] at ran
        obtain ⟨database, held, rfl⟩ := ran
        have copied : Early start prepared operationId { one.state with store := { one.state.store with
            copies := fun id => if id = journal.operationId then some database else one.state.store.copies id } } :=
          ⟨first.home, first.unlisted, first.planned⟩
        refine ⟨.inl copied, fun _ _ => ⟨copied, database, ?_, first.home ▸ held⟩⟩
        exact if_pos own.symm
      · exact fun _ _ _ => nofun
    · intro _ two _ copied
      obtain ⟨second, copy⟩ := copied () rfl
      apply safe_then _ _ (fun outcome seen => ∀ value, outcome = .ok value → Backed start prepared operationId target seen.state)
      · apply safe_touch _ _ _ (.inl second)
        · intro after rest ran _
          cases ran
          have backed : Backed start prepared operationId target { two.state with store := { two.state.store with
              manifests := fun id =>
                if id = journal.operationId then some ⟨journal.operationId, target⟩ else two.state.store.manifests id } } := by
            refine ⟨installing_start target _ second.home, ?_, copy, second.planned⟩
            dsimp only
            rw [if_pos own.symm, own]
          exact ⟨.inr ⟨target, backed⟩, fun _ _ => backed⟩
        · exact fun _ _ _ => nofun
      · intro _ three _ listed
        have moves : Moves (KeepsBacked start prepared operationId target) (writeJournal { journal with status := .backedUp }) :=
          write_journal_moves _ own same
        exact Prog.safe_mono _ _ _ _ (fun _ _ _ backed _ _ => backed) (backed_safe _ moves three (listed () rfl))
      · exact fun error _ _ _ _ => no_value error _
    · exact fun error _ _ _ _ => no_value error _
  · exact fun error _ _ _ _ => no_value error _

theorem run_import_safe (found : Preflight) (journal : OperationJournal) (own : journal.operationId = operationId)
    (same : journal.plannedRollouts = found.prepared.map PreparedThread.planned) (device : Faulty (ImportDisk δ))
    (early : Early start found.prepared operationId device.state) :
    SafeAccess (Phase start found.prepared operationId) (runImport env found journal)
      (fun outcome seen => ∀ pair, outcome = .ok pair → Backed start found.prepared operationId pair.1 seen.state) device := by
  apply safe_then _ _ _ _ _ (early_safe _ (moves_inspect early_refl _) device early)
  · intro target one _ first
    apply safe_then _ _ _ _ _ (back_up_safe target journal own same one first)
    · intro _ two _ backed
      apply safe_then _ _ _ _ _ (backed_safe _ (install_import_moves env journal own same) two (backed () rfl))
      · intro installed three kept still
        refine safe_done _ _ _ kept fun pair equal => ?_
        cases equal
        exact still
      · exact fun error _ _ _ _ => no_value error _
    · exact fun error _ _ _ _ => no_value error _
  · exact fun error _ _ _ _ => no_value error _

end Runs

variable (input : ImportInput) (device : Faulty (ImportDisk δ)) (found : Preflight) (mid : Faulty (ImportDisk δ))
  (checked : (preflight env input).exec device = (.ok found, mid)) (unused : NewOperation input.operationId device.state.store)

include checked

theorem preflight_still : mid.state = device.state ∧ Vacant device.state.disk found.prepared := by
  have safe := preflight_safe env input device rfl
  rw [SafeAccess, Prog.safe_iff, checked] at safe
  have last := Prog.cut_exec (preflight env input) device
  rw [checked] at last
  exact ⟨safe.1 mid last, safe.2 found rfl⟩

include unused

theorem begin_safe : SafeAccess (Phase device.state.disk found.prepared input.operationId) (beginImport env input)
    (fun outcome seen => ∀ pair, outcome = .ok pair → pair = (found, newJournal env input found.snapshot.snapshotId found.prepared) ∧
      Early device.state.disk found.prepared input.operationId seen.state) device := by
  have same := (preflight_still env input device found mid checked).1
  have first : Early device.state.disk found.prepared input.operationId device.state := early_new device.state unused rfl
  apply safe_then _ _ (fun outcome seen => outcome = .ok found ∧ seen = mid)
  · have safe := preflight_safe env input device rfl
    rw [SafeAccess, Prog.safe_iff] at safe ⊢
    refine ⟨fun seen cut => ?_, ?_⟩
    · rw [safe.1 seen cut]
      exact .inl first
    · rw [checked]
      exact ⟨rfl, rfl⟩
  · intro value seen _ ended
    obtain ⟨read, place⟩ := ended
    cases read
    subst place
    have moves : Moves (KeepsEarly device.state.disk found.prepared input.operationId)
        (writeJournal (newJournal env input found.snapshot.snapshotId found.prepared)) := write_early_moves _ rfl rfl
    apply safe_then _ _ _ _ _ (early_safe _ moves seen (same ▸ first))
    · intro _ last kept early
      refine safe_done _ _ _ kept fun pair equal => ?_
      cases equal
      exact ⟨rfl, early⟩
    · exact fun error _ _ _ _ => no_value error _
  · intro error seen _ ended
    cases ended.1

theorem import_safe : SafeAccess (Phase device.state.disk found.prepared input.operationId) (importLocalSnapshot env input)
    (fun _ _ => True) device := by
  apply safe_then _ _ _ _ _ (begin_safe env input device found mid checked unused)
  · intro pair begun _ begins
    obtain ⟨rfl, early⟩ := begins pair rfl
    dsimp only
    split
    · have moves : Moves (KeepsEarly device.state.disk found.prepared input.operationId)
          (writeJournal { newJournal env input found.snapshot.snapshotId found.prepared with status := .completed }) :=
        write_early_moves _ rfl rfl
      apply safe_then _ _ _ _ _ (early_safe _ moves begun early)
      · exact fun _ _ kept _ => safe_done _ _ _ kept trivial
      · exact fun _ _ _ _ => trivial
    · have ran := run_import_safe env found (newJournal env input found.snapshot.snapshotId found.prepared) rfl rfl begun early
      apply safe_then _ _ _ _ _ ran
      · intro outcome seen _ ran
        have moves : Moves (KeepsBacked device.state.disk found.prepared input.operationId outcome.1)
            (finishImport env found.prepared outcome.1 (newJournal env input found.snapshot.snapshotId found.prepared)
              (skippedCount found)
              outcome.2) := finish_moves env (newJournal env input found.snapshot.snapshotId found.prepared) rfl rfl _ _
        exact Prog.safe_mono _ _ _ _ (fun _ _ _ _ => trivial) (backed_safe _ moves seen (ran outcome rfl))
      · exact fun _ _ _ _ => trivial
  · exact fun _ _ _ _ => trivial

-- What a crash can leave: the import was cut off somewhere, and so were any recoveries since.
def Interrupted (input : ImportInput) (device seen : Faulty (ImportDisk δ)) : Prop :=
  ∃ cut, (importLocalSnapshot env input).Cut device cut ∧
    Prog.Restarted (recoverIncompleteOperation env true input.operationId) cut seen

omit checked unused in
structure RollbackExact : Prop where
  rolledBack : ∀ journal begun target error seen, found.prepared ≠ [] →
    (beginImport env input).exec device = (.ok (found, journal), begun) →
    (runImport env found journal).exec begun = (.ok (target, .error error), ⟨seen, []⟩) →
      ∃ after, (importLocalSnapshot env input).exec device = (.error error, ⟨after, []⟩) ∧
        (SameHome device.state.disk after.disk ↔ Recognised env.lib found.prepared seen.disk)
  recovered : ∀ seen stored recovered after, Interrupted env input device seen →
    seen.state.store.journals[input.operationId]? = some stored → stored.status ≠ .completed ∧ stored.status ≠ .rolledBack →
    (recoverIncompleteOperation env true input.operationId).exec ⟨seen.state, []⟩ = (.ok recovered, after) →
      (SameHome device.state.disk after.state.disk ↔ Recognised env.lib found.prepared seen.state.disk)

variable (fresh : FreshNames device.state.disk found.prepared)

include fresh

theorem interrupted_phase (seen : Faulty (ImportDisk δ)) (interrupted : Interrupted env input device seen) :
    Phase device.state.disk found.prepared input.operationId seen.state := by
  obtain ⟨cut, crashed, again⟩ := interrupted
  have safe := import_safe env input device found mid checked unused
  rw [SafeAccess, Prog.safe_iff] at safe
  exact Prog.restarted_keep _ (fun begun phase => recover_safe env true fresh begun phase) cut seen (safe.1 cut crashed) again

omit unused in
theorem recovered_iff (seen : ImportDisk δ) (stored recovered : OperationJournal) (after : Faulty (ImportDisk δ))
    (phase : Phase device.state.disk found.prepared input.operationId seen)
    (held : seen.store.journals[input.operationId]? = some stored) (open_ : stored.status ≠ .completed ∧ stored.status ≠ .rolledBack)
    (done : (recoverIncompleteOperation env true input.operationId).exec ⟨seen, []⟩ = (.ok recovered, after)) :
    SameHome device.state.disk after.state.disk ↔ Recognised env.lib found.prepared seen.disk := by
  have vacant := (preflight_still env input device found mid checked).2
  obtain ⟨own, same⟩ := phase_plans seen phase stored held
  have recovers : (if (seen.store.manifests stored.operationId).isSome = false ∧ stored.status = .preparing then recoverPrepared stored
      else recoverBackedUp env stored).exec ⟨seen, []⟩ = (.ok recovered, after) := by
    rw [recoverIncompleteOperation, Prog.exec_bind, Prog.exec_of_except, ensure, if_pos rfl] at done
    dsimp only at done
    rw [readJournal, Prog.exec_bind, quiet_inspect, held] at done
    dsimp only [Checked.found] at done
    rw [Prog.exec_bind, quiet_probe] at done
    obtain ⟨unfinished, unrolled⟩ := open_
    cases status : stored.status with
    | completed => exact absurd status unfinished
    | rolledBack => exact absurd status unrolled
    | preparing | backedUp | applying | validating | recoveryRequired => simpa only [status] using done
  rcases phase with early | ⟨target, backed⟩
  · have untouched : SameHome device.state.disk seen.disk := by
      rw [early.home]
      exact ⟨fun _ => rfl, fun _ => rfl⟩
    have recognised : Recognised env.lib found.prepared seen.disk := by
      refine ⟨fun thread member bytes there => ?_, fun thread member => ?_⟩
      · rw [early.home, vacant.absent thread member] at there
        cases there
      · rw [early.home]
        exact fresh.copy thread member
    refine iff_of_true ?_ recognised
    split at recovers
    · have kept := Prog.acts_exec (fun device => early_refl device.state) (fun _ _ _ one two start => two (one start)) _
        (recover_prepared_moves stored own same fresh) ⟨seen, []⟩ early
      rw [recovers] at kept
      rw [kept.home]
      exact ⟨fun _ => rfl, fun _ => rfl⟩
    · rw [recoverBackedUp, Prog.exec_bind, quiet_inspect, own, early.unlisted] at recovers
      cases recovers
  · obtain ⟨database, copied, original⟩ := backed.copy
    rw [own, backed.listed, if_neg fun impossible => Bool.noConfusion impossible.1] at recovers
    obtain ⟨_, store, ran, _⟩ := quiet_recover env stored ⟨input.operationId, target⟩ database seen (own ▸ backed.listed) own.symm
      (own ▸ copied)
    rw [ran] at recovers
    cases recovers
    rw [same]
    exact restored_iff env target database seen.disk vacant fresh backed.installing original

-- A rollback or a recovery that the system does not disturb gives the home back as it
-- was exactly when it can tell every file that the import has put there.
theorem import_rollback_exact : RollbackExact env input device found := by
  constructor
  · intro journal begun target error seen nonempty begins fails
    have vacant := (preflight_still env input device found mid checked).2
    have safe := begin_safe env input device found mid checked unused
    rw [SafeAccess, Prog.safe_iff, begins] at safe
    obtain ⟨same, early⟩ := safe.2 _ rfl
    cases same
    have ran := run_import_safe env found (newJournal env input found.snapshot.snapshotId found.prepared) rfl rfl begun early
    rw [SafeAccess, Prog.safe_iff, fails] at ran
    have backed := ran.2 _ rfl
    obtain ⟨database, copied, original⟩ := backed.copy
    obtain ⟨store, rolled⟩ := quiet_rollback env error found.prepared target
      (newJournal env input found.snapshot.snapshotId found.prepared) database seen copied
    refine ⟨⟨restored env (found.prepared.map PreparedThread.planned) target database seen.disk, store⟩, ?_,
      restored_iff env target database seen.disk vacant fresh backed.installing original⟩
    · rw [importLocalSnapshot, Prog.exec_bind, begins]
      dsimp only
      rw [if_neg nonempty, Prog.exec_bind, fails]
      exact rolled
  · intro seen stored recovered after interrupted held open_ done
    exact recovered_iff env input device found mid checked fresh seen.state stored recovered after
      (interrupted_phase env input device found mid checked unused fresh seen interrupted) held open_ done

end Exact

instance freshDecidable {δ : Type} (start : Disk δ) (prepared : List PreparedThread) : Decidable (FreshNames start prepared) :=
  decidable_of_iff ((∀ thread ∈ prepared, rolloutAt thread.temporaryPath start = none) ∧
      (∀ thread ∈ prepared, rolloutAt thread.copyPath start = none) ∧
      ∀ thread ∈ prepared, ∀ other ∈ prepared, thread.temporaryPath ≠ other.targetPath ∧ thread.copyPath ≠ other.targetPath ∧
        thread.copyPath ≠ other.temporaryPath)
    ⟨fun fresh => ⟨fresh.1, fresh.2.1, fresh.2.2⟩, fun fresh => ⟨fresh.temporary, fresh.copy, fresh.apart⟩⟩

namespace Sample

-- One thread of a v4 repository, whose rollout is stored with the token for the provider.
def payload : Fields := [("id", .string "t"), ("model_provider", .string providerTokenV4)]

def record : Value := .object [("payload", .object payload), ("type", .string "session_meta")]

def stored : Bytes := canonicalJson sampleLib record ++ [newline]

def content : ContentRefV4 :=
  ⟨digestBytes sampleLib stored, fileLength stored, .whole (digestBytes sampleLib stored), "application/x-ndjson",
    some "sessions/a.jsonl"⟩

def thread : ThreadBundle :=
  { schemaVersion := 1, threadId := "t", title := "", archived := false, createdAtMs := none,
    updatedAtMs := none, modelProvider := none
    workspace := ⟨none, none⟩, rollout := Storage.contentObjectFromRefV4 content
    relatedRecords := ⟨none, (∅ : Std.ExtTreeMap String (List Value)).insert "threads" [.object [("id", .string "t")]]⟩
    attachments := [] }

def reader : Reader where
  parse body := if body = canonicalJson sampleLib record then .ok record else .error "expected value"
  formed := by
    intro body value parsed
    split at parsed
    · cases parsed
      exact ⟨⟨⟨⟨trivial, trivial, trivial⟩, List.pairwise_pair.mpr (by simp only [String.reduceLT])⟩, trivial, trivial⟩,
        List.pairwise_pair.mpr (by simp only [String.reduceLT])⟩
    · cases parsed

-- The home has no thread yet, and its configuration names the provider openai.
def env : ImportEnv (List String) where
  lib := sampleLib
  targetCodexHome := "/home"
  codexHomeKey := .ok "/home"
  sameHome other := .ok (decide (other = "/home"))
  scan _ := .ok ⟨0, ["state.sqlite"], []⟩
  catalogDatabases _ := .ok []
  normalized _ _ _ := .ok (digestBytes sampleLib stored, fileLength stored)
  projectState _ _ _ := .ok none
  safeRolloutPath _ := .ok (.sessions, "a.jsonl")
  materialize _ := .ok stored
  selectPrimaryDatabase _ _ := .ok "state.sqlite"
  deleteThreads _ := .ok []
  insertThreads threads _ := .ok (threads.map ThreadBundle.threadId)
  invalidateCatalog rows := .ok rows
  reader := reader
  serde := ⟨fun _ => .error "expected value", fun _ => .error "expected value", fun _ => .error "expected value",
    fun _ => .error "expected value", fun _ => .error "expected value"⟩
  files := (∅ : Files).insert (.whole, digestBytes sampleLib stored) stored
  configuredProvider _ := .ok "openai"
  insertRows threads rows := .ok (rows ++ threads.map fun thread => thread.1.threadId)

def input : ImportInput where
  confirmedCodexClosed := true
  operationId := 0x01900000000070008000000000000001
  manifest := .ok (⟨1, "s", "now", [thread], 0⟩, some ((∅ : Contents).insert "t" content))
  importId _ := 0x01900000000070008000000000000002
  copyId _ := 0x01900000000070008000000000000003

def start : ImportDisk (List String) where
  disk := { entries := fun _ => none, databases := (∅ : Std.ExtTreeMap String (List String)).insert "state.sqlite" [],
            databaseBackups := fun _ => none, journals := ∅, tracking := Tracking.TrackingDb.initialized }
  store := { journals := ∅, manifests := fun _ => none, copies := fun _ => none }

-- The user cancels when the rollout has its place already.
def device : Faulty (ImportDisk (List String)) := ⟨start, List.replicate 33 false ++ [true]⟩

end Sample

-- A rollout of a v4 repository gets the provider's name when it is installed, so its
-- hash is not the recorded one and the rollback leaves it in the home.
theorem cancelled_import_stays :
    ((importLocalSnapshot Sample.env Sample.input).exec Sample.device).1 = .error "operation cancelled" ∧
      (((importLocalSnapshot Sample.env Sample.input).exec Sample.device).2.state.store.journals[Sample.input.operationId]?.map
        OperationJournal.status) = some .rolledBack ∧
      ¬ SameHome Sample.device.state.disk ((importLocalSnapshot Sample.env Sample.input).exec Sample.device).2.state.disk := by
  refine ⟨by decide +kernel, by decide +kernel, fun same => ?_⟩
  have absent : rolloutAt (.sessions, "a.jsonl") Sample.device.state.disk = none := by decide +kernel
  have left : rolloutAt (.sessions,
    "a.jsonl") ((importLocalSnapshot Sample.env Sample.input).exec Sample.device).2.state.disk ≠ none := by
    decide +kernel
  exact left ((same.rollouts _).trans absent)

theorem import_rollback_exact_sample : ∃ found mid, (preflight Sample.env Sample.input).exec Sample.device = (.ok found, mid) ∧
    RollbackExact Sample.env Sample.input Sample.device found := by
  have ready : ((preflight Sample.env Sample.input).exec Sample.device).1.toOption.map
      (fun found => decide (FreshNames Sample.device.state.disk found.prepared)) = some true := by decide +kernel
  cases outcome : (preflight Sample.env Sample.input).exec Sample.device with
  | mk result mid =>
      rw [outcome] at ready
      cases result with
      | error error => cases ready
      | ok found =>
          exact ⟨found, mid, rfl, import_rollback_exact Sample.env Sample.input Sample.device found mid outcome ⟨rfl,
            by decide +kernel⟩
            (of_decide_eq_true (Option.some.inj ready))⟩

end SessionSync.Import
