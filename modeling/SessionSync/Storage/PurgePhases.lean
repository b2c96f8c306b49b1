import SessionSync.Storage.PurgeSteps

set_option autoImplicit false

namespace SessionSync.Storage

open SessionSync.Core Checked Local

section Phases

variable (codec : PurgeCodec) (start : PurgeRepository) (operation : String) (plan : LocalTrashPurgePlanV4)

def OwnPurge (journal : LocalTrashPurgeJournalV4) : Prop :=
  ∃ status error, journal = { newPurge codec operation plan with status := status, error := error }

-- What a purge leaves alone from its start to its end.
structure PurgeFrame (repository : PurgeRepository) : Prop where
  snapshots : repository.snapshots = start.snapshots
  formatMarker : repository.formatMarker = start.formatMarker
  journals : repository.journals = start.journals
  others : ∀ name, name ≠ operation → repository.purges[name]? = start.purges[name]?
  own : ∀ journal, repository.purges[operation]? = some journal → OwnPurge codec operation plan journal
  staging : ∀ other, other ≠ stagingRootOf codec operation → repository.staging[other]? = start.staging[other]?

-- The entry is where it was before the purge.
def HomeAt (repository : PurgeRepository) (operationId : String) : Prop :=
  repository.trash[operationId]? = start.trash[operationId]? ∧
    repository.stagedEntry (stagingRootOf codec operation) operationId = none

def AwayAt (repository : PurgeRepository) (operationId : String) : Prop :=
  operationId ∈ plan.operationIds ∧ repository.trash[operationId]? = none ∧
    repository.stagedEntry (stagingRootOf codec operation) operationId = start.trash[operationId]?

-- Before the journal says that the purge is committed no object has moved.
structure Unmoved (repository : PurgeRepository) : Prop extends PurgeFrame codec start operation plan repository where
  files : repository.files = start.files
  index : repository.sourceIndex = start.sourceIndex
  objects : ∀ name, repository.stagedObject (stagingRootOf codec operation) name = none
  entries : ∀ operationId, HomeAt codec start operation repository operationId ∨
    AwayAt codec start operation plan repository operationId

structure Opened (repository : PurgeRepository) : Prop extends Unmoved codec start operation plan repository where
  status : ∀ journal, repository.purges[operation]? = some journal →
    journal.status = .preparing ∨ journal.status = .entriesStaged ∨ journal.status = .rolledBack
  rests : (∀ journal, repository.purges[operation]? = some journal → journal.status = .rolledBack) →
    ∀ operationId, HomeAt codec start operation repository operationId

-- From then on the entries are gone and the candidates go one by one.
structure Swept (repository : PurgeRepository) : Prop extends PurgeFrame codec start operation plan repository where
  trash : repository.trash = purgedTrash start.toMarkedRepository plan
  files : ∀ name, repository.files[name]? = start.files[name]? ∨ name ∈ PurgedNames plan ∧ repository.files[name]? = none
  staged : ∀ name bytes, repository.stagedObject (stagingRootOf codec operation) name = some bytes → start.files[name]? = some bytes
  index : repository.sourceIndex = start.sourceIndex ∨ repository.sourceIndex = none

structure Emptied (repository : PurgeRepository) : Prop where
  gone : ∀ name ∈ PurgedNames plan, repository.files[name]? = none
  cleared : repository.staging[stagingRootOf codec operation]? = none
  unindexed : repository.sourceIndex = none

def Committing (status : LocalTrashPurgeStatusV4) : Prop := status = .committed ∨ status = .objectsStaged

structure Closed (repository : PurgeRepository) : Prop extends Swept codec start operation plan repository where
  journal : ∃ journal, repository.purges[operation]? = some journal ∧
    (Committing journal.status ∨ journal.status = .completed ∧ Emptied codec operation plan repository)

end Phases

section Frame

variable {codec : PurgeCodec} {start : PurgeRepository} {operation : String} {plan : LocalTrashPurgePlanV4}
    {repository after : PurgeRepository}

theorem frame_beside (frame : PurgeFrame codec start operation plan repository)
    (beside : Beside (stagingRootOf codec operation) repository after) :
    PurgeFrame codec start operation plan after where
  snapshots := beside.snapshots.trans frame.snapshots
  formatMarker := beside.formatMarker.trans frame.formatMarker
  journals := beside.journals.trans frame.journals
  others name apart := by rw [beside.purges, frame.others name apart]
  own journal stored := frame.own journal (beside.purges ▸ stored)
  staging other apart := (beside.staging other apart).trans (frame.staging other apart)

theorem frame_journal (frame : PurgeFrame codec start operation plan repository) (journal : LocalTrashPurgeJournalV4)
    (own : OwnPurge codec operation plan journal) :
    PurgeFrame codec start operation plan (repository.setPurge operation journal) where
  snapshots := frame.snapshots
  formatMarker := frame.formatMarker
  journals := frame.journals
  others name apart := by
    rw [PurgeRepository.setPurge, Keyed.lookup_insert, if_neg apart]
    exact frame.others name apart
  own other stored := by
    rw [PurgeRepository.setPurge, Keyed.lookup_insert, if_pos rfl, Option.some.injEq] at stored
    rw [← stored]
    exact own
  staging := frame.staging

theorem stored_purge (journal : LocalTrashPurgeJournalV4) :
    (repository.setPurge operation journal).purges[operation]? = some journal := by
  rw [PurgeRepository.setPurge, Keyed.lookup_insert, if_pos rfl]

theorem own_status (journal : LocalTrashPurgeJournalV4) (own : OwnPurge codec operation plan journal)
    (status : LocalTrashPurgeStatusV4) (error : Option String) :
    OwnPurge codec operation plan { journal with status := status, updatedAt := codec.now, error := error } := by
  obtain ⟨_, _, rfl⟩ := own
  exact ⟨status, error, rfl⟩

theorem own_next (journal : LocalTrashPurgeJournalV4) (own : OwnPurge codec operation plan journal)
    (status : LocalTrashPurgeStatusV4) :
    OwnPurge codec operation plan { journal with status := status, updatedAt := codec.now } :=
      own_status journal own status journal.error

theorem safe_if {crash : PurgeRepository → Prop} {ε α : Type} {condition : Prop} [Decidable condition]
    (first second : Prog (Faulty PurgeRepository) ε α) (post : Except ε α → Faulty PurgeRepository → Prop)
    (device : Faulty PurgeRepository) (yes : condition → SafeAccess crash first post device)
    (no : ¬condition → SafeAccess crash second post device) :
    SafeAccess crash (if condition then first else second) post device := by
  by_cases holds : condition
  · rw [if_pos holds]
    exact yes holds
  · rw [if_neg holds]
    exact no holds

-- A step whose outcome is known.
theorem comes_runs {crash : PurgeRepository → Prop} (run : PurgeRepository → Except String PurgeRepository)
    (good : Unit → PurgeRepository → Prop) (blocked : Prop) (faults : List Bool) (here : crash repository)
    (ran : run repository = .ok after) (there : crash after) (ends : good () after) :
    SafeAccess crash (touch run) (comesTo faults good blocked) ⟨repository, faults⟩ := by
  refine comes_touch _ _ _ _ _ here (fun reached outcome => ?_) fun error refused => ?_
  · rw [ran, Except.ok.injEq] at outcome
    exact outcome ▸ ⟨there, ends⟩
  · rw [ran] at refused
    exact no_value _ _ refused.symm

theorem comes_runs_on {crash : PurgeRepository → Prop} {α : Type} (run : PurgeRepository → Except String PurgeRepository)
    (next : Unit → PurgeAccess α) (good : α → PurgeRepository → Prop) (blocked : Prop) (faults : List Bool) (here : crash repository)
    (ran : run repository = .ok after) (there : crash after)
    (goes : ∀ faults, SafeAccess crash (next ()) (comesTo faults good blocked) ⟨after, faults⟩) :
    SafeAccess crash (touch run >>= next) (comesTo faults good blocked) ⟨repository, faults⟩ := by
  apply comes_then _ _ _ _ _ _ _ (comes_runs run (fun _ state => state = after) blocked faults here ran there rfl)
  intro _ state rest _ same
  subst same
  exact goes rest

theorem comes_reads {crash : PurgeRepository → Prop} {α β : Type} (look : PurgeRepository → Except String α)
    (next : α → PurgeAccess β) (good : β → PurgeRepository → Prop) (blocked : Prop) (faults : List Bool) (here : crash repository)
    (value : α) (read : look repository = .ok value)
    (goes : ∀ faults, SafeAccess crash (next value) (comesTo faults good blocked) ⟨repository, faults⟩) :
    SafeAccess crash (inspect look >>= next) (comesTo faults good blocked) ⟨repository, faults⟩ := by
  apply comes_then _ _ (fun found state => found = value ∧ state = repository)
  · refine comes_inspect _ _ _ repository faults here (fun found outcome => ?_) fun error refused => ?_
    · rw [read, Except.ok.injEq] at outcome
      exact ⟨outcome.symm, rfl⟩
    · rw [read] at refused
      exact no_value _ _ refused.symm
  intro found state rest _ seen
  obtain ⟨rfl, rfl⟩ := seen
  exact goes rest

theorem comes_passes {crash : PurgeRepository → Prop} {α : Type} (condition : Prop) [Decidable condition] (reason : String)
    (holds : condition) (next : Unit → PurgeAccess α) (good : α → PurgeRepository → Prop) (blocked : Prop) (faults : List Bool)
    (here : crash repository) (goes : SafeAccess crash (next ()) (comesTo faults good blocked) ⟨repository, faults⟩) :
    SafeAccess crash (Prog.ofExcept (ensure condition reason) >>= next) (comesTo faults good blocked) ⟨repository, faults⟩ := by
  apply comes_check _ _ _ _ _ _ here
  · exact fun _ _ => goes
  · intro error refused
    rw [ensure, if_pos holds] at refused
    exact no_value _ _ refused.symm

theorem remove_existing_comes {crash : PurgeRepository → Prop} (present : PurgeRepository → Bool)
    (remove : PurgeRepository → Except String PurgeRepository) (good : Unit → PurgeRepository → Prop) (blocked : Prop)
    (faults : List Bool) (here : crash repository)
    (there : present repository = true → ∃ after, remove repository = .ok after ∧ crash after ∧ good () after)
    (absent : present repository = false → good () repository) :
    SafeAccess crash (removeExisting present remove) (comesTo faults good blocked) ⟨repository, faults⟩ := by
  apply safe_probe _ _ _ _ here
  apply safe_if
  · intro found
    obtain ⟨after, ran, kept, ends⟩ := there found
    exact comes_runs _ _ _ faults here ran kept ends
  · exact fun missing => comes_done () _ _ repository faults here (absent (Bool.not_eq_true _ ▸ missing))

theorem write_purge_comes {crash : PurgeRepository → Prop} (journal : LocalTrashPurgeJournalV4) (good : Unit → PurgeRepository → Prop)
    (blocked : Prop) (faults : List Bool) (here : crash repository) (there : crash (repository.setPurge operation journal))
    (ends : good () (repository.setPurge operation journal)) :
    SafeAccess crash (writePurgeJournal operation journal) (comesTo faults good blocked) ⟨repository, faults⟩ := by
  apply comes_then _ _ (fun _ state => state = repository)
  · exact comes_fallible _ _ repository faults here rfl
  · intro _ state rest _ same
    subst same
    exact comes_runs _ _ _ rest here rfl there ends

end Frame

section Rollback

variable {codec : PurgeCodec} {start : PurgeRepository} {operation : String} {plan : LocalTrashPurgePlanV4}
    {repository after : PurgeRepository}

-- The purge is under way and its journal says so.
structure Working (codec : PurgeCodec) (start : PurgeRepository) (operation : String) (plan : LocalTrashPurgePlanV4)
    (repository : PurgeRepository) : Prop
    extends Unmoved codec start operation plan repository where
  journal : ∃ journal, repository.purges[operation]? = some journal ∧ (journal.status = .preparing ∨ journal.status = .entriesStaged)

theorem working_opened (working : Working codec start operation plan repository) : Opened codec start operation plan repository := by
  obtain ⟨journal, stored, status⟩ := working.journal
  refine ⟨working.toUnmoved, fun other found => ?_, fun rests => ?_⟩
  · rw [stored, Option.some.injEq] at found
    rw [← found, ← or_assoc]
    exact .inl status
  · rw [rests journal stored] at status
    exact status.elim (fun same => nomatch same) fun same => nomatch same

theorem working_beside (working : Working codec start operation plan repository)
    (beside : Beside (stagingRootOf codec operation) repository after) (files : after.files = repository.files)
    (index : after.sourceIndex = repository.sourceIndex)
    (objects : ∀ name, after.stagedObject (stagingRootOf codec operation) name =
    repository.stagedObject (stagingRootOf codec operation) name)
    (entries : ∀ operationId, HomeAt codec start operation after operationId ∨ AwayAt codec start operation plan after operationId) :
    Working codec start operation plan after where
  toPurgeFrame := frame_beside working.toPurgeFrame beside
  files := files.trans working.files
  index := index.trans working.index
  objects name := (objects name).trans (working.objects name)
  entries := entries
  journal := beside.purges ▸ working.journal

theorem rollback_entry_comes (operationId : String) (working : Working codec start operation plan repository) (faults : List Bool) :
    SafeAccess (Opened codec start operation plan) (rollbackEntry (stagingRootOf codec operation) operationId)
      (comesTo faults (fun _ after => Working codec start operation plan after ∧ HomeAt codec start operation after operationId ∧
        ∀ other, HomeAt codec start operation repository other → HomeAt codec start operation after other) False) ⟨repository,
          faults⟩ := by
  have here := working_opened working
  apply safe_probe _ _ _ _ here
  apply safe_probe _ _ _ _ here
  rcases working.entries operationId with home | ⟨among, gone, staged⟩
  · rw [home.2]
    exact comes_done () _ _ repository faults here ⟨working, home, fun other => id⟩
  · by_cases there : (repository.stagedEntry (stagingRootOf codec operation) operationId).isSome = true
    · rw [there, gone]
      obtain ⟨after, ran, returned⟩ := unstage_entry_runs operationId there
      have trash : ∀ other, after.trash[other]? =
        if other = operationId then start.trash[operationId]? else repository.trash[other]? := by
        intro other
        rw [returned.trash other, staged]
      have home : HomeAt codec start operation after operationId := by
        refine ⟨?_, ?_⟩
        · rw [trash, if_pos rfl]
        · rw [returned.entries, if_pos rfl]
      have others : ∀ other, other ≠ operationId → (after.trash[other]? = repository.trash[other]? ∧
          after.stagedEntry (stagingRootOf codec operation) other =
            repository.stagedEntry (stagingRootOf codec operation) other) := by
        intro other apart
        exact ⟨by rw [trash, if_neg apart], by rw [returned.entries, if_neg apart]⟩
      have still : ∀ other, HomeAt codec start operation repository other → HomeAt codec start operation after other := by
        intro other was
        by_cases same : other = operationId
        · exact same ▸ home
        · exact ⟨(others other same).1.trans was.1, (others other same).2.trans was.2⟩
      have works : Working codec start operation plan after := by
        refine working_beside working returned.toBeside returned.files returned.index returned.objects fun other => ?_
        rcases working.entries other with was | ⟨inside, lost, held⟩
        · exact .inl (still other was)
        · by_cases same : other = operationId
          · exact .inl (same ▸ home)
          · exact .inr ⟨inside, (others other same).1.trans lost, (others other same).2.trans held⟩
      exact comes_runs _ _ _ faults here ran (working_opened works) ⟨works, home, still⟩
    · have none_ := Option.not_isSome_iff_eq_none.mp there
      rw [none_]
      exact comes_done () _ _ repository faults here ⟨working, ⟨gone.trans (staged.symm.trans none_).symm, none_⟩, fun other => id⟩

theorem home_everywhere (unmoved : Unmoved codec start operation plan repository)
    (home : ∀ operationId ∈ plan.operationIds, HomeAt codec start operation repository operationId) (operationId : String) :
    HomeAt codec start operation repository operationId := by
  rcases unmoved.entries operationId with here | away
  · exact here
  · exact home operationId away.1

theorem opened_rolled_back (unmoved : Unmoved codec start operation plan repository)
    (home : ∀ operationId, HomeAt codec start operation repository operationId) (journal : LocalTrashPurgeJournalV4)
    (own : OwnPurge codec operation plan journal) (status : journal.status = .rolledBack) :
    Opened codec start operation plan (repository.setPurge operation journal) := by
  refine ⟨⟨frame_journal unmoved.toPurgeFrame journal own, unmoved.files, unmoved.index, unmoved.objects, unmoved.entries⟩,
    fun other stored => ?_, fun _ => home⟩
  rw [stored_purge, Option.some.injEq] at stored
  exact .inr (.inr (stored ▸ status))

-- The state before the purge, and a journal that says so.
structure PutBack (codec : PurgeCodec) (start : PurgeRepository) (operation : String) (plan : LocalTrashPurgePlanV4)
    (repository : PurgeRepository) : Prop
    extends Opened codec start operation plan repository where
  journal : ∃ journal, repository.purges[operation]? = some journal ∧ journal.status = .rolledBack

theorem opened_removed (opened : Opened codec start operation plan repository)
    (home : ∀ operationId, HomeAt codec start operation repository operationId) :
    Opened codec start operation plan (removeAllStaging (stagingRootOf codec operation) repository) := by
  have gone : (removeAllStaging (stagingRootOf codec operation) repository).staging[stagingRootOf codec operation]? = none := by
    rw [removeAllStaging, Keyed.lookup_erase, if_pos rfl]
  have home : ∀ operationId,
    HomeAt codec start operation (removeAllStaging (stagingRootOf codec operation) repository) operationId := by
    intro operationId
    refine ⟨(home operationId).1, ?_⟩
    rw [PurgeRepository.stagedEntry, gone]
    rfl
  refine ⟨⟨⟨opened.snapshots, opened.formatMarker, opened.journals, opened.others, opened.own, fun other apart => ?_⟩,
    opened.files, opened.index, fun name => ?_, fun operationId => .inl (home operationId)⟩, opened.status, fun _ => home⟩
  · rw [removeAllStaging, Keyed.lookup_erase, if_neg apart]
    exact opened.staging other apart
  · rw [PurgeRepository.stagedObject, gone]
    rfl

theorem rollback_entries_comes (operationIds : List String) (listed : ∀ operationId ∈ plan.operationIds, operationId ∈ operationIds)
    (working : Working codec start operation plan repository) (faults : List Bool) :
    SafeAccess (Opened codec start operation plan) (Prog.forEach operationIds (rollbackEntry (stagingRootOf codec operation)))
      (comesTo faults (fun _ after => Working codec start operation plan after ∧ ∀ operationId,
        HomeAt codec start operation after operationId) False)
      ⟨repository, faults⟩ := by
  have loop := comes_for_each (rollbackEntry (stagingRootOf codec operation))
    (fun rest after => Working codec start operation plan after ∧
      ∀ operationId ∈ plan.operationIds, operationId ∉ rest → HomeAt codec start operation after operationId) False
    (fun operationId rest state faults inv => ?_)
    (fun state inv => (working_opened inv.1 : Opened codec start operation plan state)) operationIds
    repository faults ⟨working, fun operationId among late => absurd (listed operationId among) late⟩
  · refine comes_mono _ _ _ _ _ _ _ (fun _ after _ ends => ⟨ends.1, ?_⟩) id loop
    exact home_everywhere ends.1.toUnmoved fun operationId among => ends.2 operationId among List.not_mem_nil
  · refine comes_mono _ _ _ _ _ _ _ (fun _ after _ ends => ⟨ends.1, fun other among late => ?_⟩) id
      (rollback_entry_comes operationId inv.1 faults)
    by_cases same : other = operationId
    · exact same ▸ ends.2.1
    · exact ends.2.2 other (inv.2 other among (by simp [same, late]))

theorem rollback_comes (journal : LocalTrashPurgeJournalV4) (own : OwnPurge codec operation plan journal)
    (working : Working codec start operation plan repository) (faults : List Bool) :
    SafeAccess (Opened codec start operation plan) (rollbackLocalTrashPurge codec operation journal)
      (comesTo faults (fun _ after => PutBack codec start operation plan after) False) ⟨repository, faults⟩ := by
  have next := own_next journal own .rolledBack
  obtain ⟨status, error, same⟩ := own
  subst same
  apply comes_then _ _ _ _ _ _ _ (rollback_entries_comes _ (fun _ => List.mem_reverse.mpr) working faults)
  intro _ state rest _ inv
  have written := opened_rolled_back inv.1.toUnmoved inv.2 _ next rfl
  apply comes_then _ _ (fun _ after => PutBack codec start operation plan after ∧ ∀ operationId,
    HomeAt codec start operation after operationId)
  · exact write_purge_comes _ _ _ rest (working_opened inv.1) written ⟨⟨written, _, stored_purge _, rfl⟩, inv.2⟩
  intro _ state rest here back
  apply safe_probe _ _ _ _ here
  apply safe_if
  · intro _
    have removed := opened_removed back.1.toOpened back.2
    exact comes_runs _ _ _ rest here rfl removed ⟨removed, back.1.journal⟩
  · exact fun _ => comes_done () _ _ state rest here back.1

end Rollback

end SessionSync.Storage
