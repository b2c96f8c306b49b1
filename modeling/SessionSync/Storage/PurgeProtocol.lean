import Mathlib.Algebra.Group.Action.Defs
import Mathlib.Algebra.Order.BigOperators.Group.List
import SessionSync.Storage.ManifestText
import SessionSync.Storage.PurgeRecovery

set_option autoImplicit false

namespace SessionSync.Storage

open SessionSync.Core Checked Local

section Purge

variable {codec : PurgeCodec} {start : PurgeRepository} {operation : String} {plan : LocalTrashPurgePlanV4}
    {repository : PurgeRepository}
  {reached all : List StorageObjectRefV4}

theorem unmoved_start (fresh : FreshPurge codec operation start) : Unmoved codec start operation plan start where
  snapshots := rfl
  formatMarker := rfl
  journals := rfl
  others _ _ := rfl
  own journal stored := by
    rw [fresh.unwritten] at stored
    cases stored
  staging _ _ := rfl
  files := rfl
  index := rfl
  objects name := by
    rw [PurgeRepository.stagedObject, fresh.unstaged]
    rfl
  entries operationId := by
    refine .inl ⟨rfl, ?_⟩
    rw [PurgeRepository.stagedEntry, fresh.unstaged]
    rfl

-- The directories are made before there is a journal.
structure Prepared (codec : PurgeCodec) (start : PurgeRepository) (operation : String) (plan : LocalTrashPurgePlanV4)
    (repository : PurgeRepository) :
    Prop extends Unmoved codec start operation plan repository where
  unwritten : repository.purges[operation]? = none
  home : ∀ operationId, HomeAt codec start operation repository operationId

theorem prepared_opened (prepared : Prepared codec start operation plan repository) :
    Opened codec start operation plan repository := by
  refine ⟨prepared.toUnmoved, fun journal stored => ?_, fun _ => prepared.home⟩
  rw [prepared.unwritten] at stored
  cases stored

theorem prepared_start (fresh : FreshPurge codec operation start) : Prepared codec start operation plan start := by
  refine ⟨unmoved_start fresh, fresh.unwritten, fun operationId => ⟨rfl, ?_⟩⟩
  rw [PurgeRepository.stagedEntry, fresh.unstaged]
  rfl

theorem prepared_moved (prepared : Prepared codec start operation plan repository) (after : PurgeRepository)
    (moved : ObjectsMoved (stagingRootOf codec operation) repository after) (files : after.files = repository.files)
    (objects : ∀ name, after.stagedObject (stagingRootOf codec operation) name =
      repository.stagedObject (stagingRootOf codec operation) name)
    (entries : ∀ operationId, after.stagedEntry (stagingRootOf codec operation) operationId =
      repository.stagedEntry (stagingRootOf codec operation) operationId) : Prepared codec start operation plan after := by
  have home : ∀ operationId, HomeAt codec start operation after operationId := by
    intro operationId
    refine ⟨?_, (entries operationId).trans (prepared.home operationId).2⟩
    rw [moved.trash]
    exact (prepared.home operationId).1
  exact ⟨⟨frame_beside prepared.toPurgeFrame moved.toBeside, files.trans prepared.files, moved.index.trans prepared.index,
    fun name => (objects name).trans (prepared.objects name), fun operationId => .inl (home operationId)⟩,
    moved.purges.symm ▸ prepared.unwritten, home⟩

theorem working_journal (unmoved : Unmoved codec start operation plan repository) (journal : LocalTrashPurgeJournalV4)
    (own : OwnPurge codec operation plan journal) (status : journal.status = .preparing ∨ journal.status = .entriesStaged) :
    Working codec start operation plan (repository.setPurge operation journal) :=
  ⟨⟨frame_journal unmoved.toPurgeFrame journal own, unmoved.files, unmoved.index, unmoved.objects, unmoved.entries⟩, journal,
    stored_purge journal, status⟩

-- The entries that are no longer to come are in the staging directory.
structure StagedUpTo (codec : PurgeCodec) (start : PurgeRepository) (operation : String) (plan : LocalTrashPurgePlanV4)
    (rest : List String) (repository : PurgeRepository) : Prop extends Working codec start operation plan repository where
  moved : ∀ operationId ∈ plan.operationIds, operationId ∉ rest → repository.trash[operationId]? = none

theorem stage_entry_comes (operationId : String) (rest : List String) (among : operationId ∈ plan.operationIds)
    (staged : StagedUpTo codec start operation plan (operationId :: rest) repository) (faults : List Bool) :
    SafeAccess (Working codec start operation plan) (touch (stageEntry (stagingRootOf codec operation) operationId))
      (comesTo faults (fun _ after => StagedUpTo codec start operation plan rest after) True) ⟨repository, faults⟩ := by
  have working := staged.toWorking
  refine comes_touch _ _ _ _ _ working (fun after ran => ?_) fun _ _ => trivial
  have spec := stage_entry_spec operationId ran
  have held : repository.trash[operationId]? = start.trash[operationId]? := by
    rcases working.entries operationId with home | away
    · exact home.1
    · obtain ⟨directory, there⟩ := spec.held
      rw [away.2.1] at there
      cases there
  have trash : ∀ other, after.trash[other]? = if other = operationId then none else repository.trash[other]? := by
    intro other
    rw [spec.trash, Keyed.lookup_erase]
  have works : Working codec start operation plan after := by
    refine working_beside working spec.toBeside spec.files spec.index spec.objects fun other => ?_
    by_cases same : other = operationId
    · refine .inr ⟨same ▸ among, ?_, ?_⟩
      · rw [trash, if_pos same]
      · rw [spec.entries, if_pos same, held, same]
    · rcases working.entries other with home | ⟨inside, gone, kept⟩
      · refine .inl ⟨?_, ?_⟩
        · rw [trash, if_neg same, home.1]
        · rw [spec.entries, if_neg same, home.2]
      · refine .inr ⟨inside, ?_, ?_⟩
        · rw [trash, if_neg same, gone]
        · rw [spec.entries, if_neg same, kept]
  refine ⟨works, works, fun other inside late => ?_⟩
  rw [trash]
  by_cases same : other = operationId
  · rw [if_pos same]
  · rw [if_neg same]
    exact staged.moved other inside (by simp [same, late])

theorem stage_entries_comes (journal : LocalTrashPurgeJournalV4) (own : OwnPurge codec operation plan journal)
    (working : Working codec start operation plan repository) (faults : List Bool) :
    SafeAccess (Working codec start operation plan) (stageEntries codec operation journal)
      (comesTo faults (fun _ after => StagedUpTo codec start operation plan [] after) True) ⟨repository, faults⟩ := by
  have next := own_next journal own .entriesStaged
  obtain ⟨status, error, same⟩ := own
  subst same
  apply comes_then _ _ (fun _ after => StagedUpTo codec start operation plan [] after)
  · have loop := comes_for_each
      (fun operationId => touch (stageEntry (stagingRootOf codec operation) operationId))
      (fun rest after => StagedUpTo codec start operation plan rest after ∧ ∀ operationId ∈ rest,
        operationId ∈ plan.operationIds) True
      (fun operationId rest state faults inv => ?_)
        (fun state inv => (inv.1.toWorking : Working codec start operation plan state)) plan.operationIds repository faults
      ⟨⟨working, fun operationId among late => absurd among late⟩, fun _ => id⟩
    · exact comes_mono _ _ _ _ _ _ _ (fun _ _ _ inv => inv.1) id loop
    · obtain ⟨first, others⟩ := List.forall_mem_cons.mp inv.2
      exact comes_mono _ _ _ _ _ _ _ (fun _ _ _ ends => ⟨ends, others⟩) id (stage_entry_comes operationId rest first inv.1 faults)
  · intro _ state rest _ staged
    have written := working_journal staged.toUnmoved _ next (.inr rfl)
    exact write_purge_comes _ _ _ rest staged.toWorking written ⟨written, staged.moved⟩

theorem lookup_purged (operationId : String) :
    (purgedTrash start.toMarkedRepository plan)[operationId]? =
      if operationId ∈ plan.operationIds then none else start.trash[operationId]? := by
  rw [purgedTrash, Std.ExtTreeMap.getElem?_filter']
  by_cases gone : operationId ∈ plan.operationIds
  · rw [if_pos gone]
    cases start.trash[operationId]? <;> simp [gone]
  · rw [if_neg gone]
    cases start.trash[operationId]? <;> simp [gone]

theorem committed_sweeping (staged : StagedUpTo codec start operation plan [] repository) (journal : LocalTrashPurgeJournalV4)
    (own : OwnPurge codec operation plan journal) (status : Committing journal.status) :
    Sweeping codec start operation plan (repository.setPurge operation journal) := by
  refine sweeping_journal ⟨staged.toPurgeFrame, ?_, fun name => .inl (by rw [staged.files]), fun name bytes held => ?_,
    .inl staged.index⟩ journal own status
  · refine Std.ExtTreeMap.ext_getElem? fun operationId => ?_
    rw [lookup_purged]
    by_cases gone : operationId ∈ plan.operationIds
    · rw [if_pos gone]
      exact staged.moved operationId gone List.not_mem_nil
    · rw [if_neg gone]
      rcases staged.entries operationId with home | away
      · exact home.1
      · exact absurd away.1 gone
  · rw [staged.objects] at held
    cases held

def Purging (codec : PurgeCodec) (start : PurgeRepository) (operation : String) (plan : LocalTrashPurgePlanV4)
    (repository : PurgeRepository) : Prop :=
  Opened codec start operation plan repository ∨ Closed codec start operation plan repository

-- A purge that reports its result has come to its end.
def Reports (codec : PurgeCodec) (start : PurgeRepository) (operation : String) (plan : LocalTrashPurgePlanV4) :
    Except String LocalTrashPurgeResultV4 → Faulty PurgeRepository → Prop
  | .ok _, seen => Finished codec start operation plan seen.state
  | .error _, _ => True

theorem note_safe (closed : Closed codec start operation plan repository) (journal : LocalTrashPurgeJournalV4)
    (own : OwnPurge codec operation plan journal) (course : Committing journal.status ∨ journal.status = .completed ∧
      Emptied codec operation plan repository) (faults : List Bool) (error : String) :
    SafeAccess (Purging codec start operation plan) (do
      let _ ← (writePurgeJournal operation journal).attempt
      Prog.ofExcept (.error error)) (Reports codec start operation plan) ⟨repository, faults⟩ := by
  have written : Closed codec start operation plan (repository.setPurge operation journal) := by
    refine ⟨⟨frame_journal closed.toPurgeFrame journal own, closed.trash, closed.files, closed.staged, closed.index⟩, journal,
      stored_purge journal, ?_⟩
    rcases course with committing | ⟨completed, emptied⟩
    · exact .inl committing
    · exact .inr ⟨completed, emptied.gone, emptied.cleared, emptied.unindexed⟩
  apply safe_tries _ _ (comesTo faults (fun _ _ => True) True)
  · exact write_purge_comes journal _ _ faults (.inr closed) (.inr written) trivial
  · exact fun _ seen here _ => safe_result _ _ _ here trivial

theorem commit_safe (removes : Removes codec start plan reached all) (staged : StagedUpTo codec start operation plan [] repository)
    (journal : LocalTrashPurgeJournalV4) (own : OwnPurge codec operation plan journal) (faults : List Bool) :
    SafeAccess (Purging codec start operation plan) (commitPurge codec operation journal)
      (Reports codec start operation plan) ⟨repository, faults⟩ := by
  have committed := own_next journal own .committed
  have sweeping := committed_sweeping staged _ committed (.inl rfl)
  have opened := working_opened staged.toWorking
  apply safe_then _ _ (comesTo faults (fun _ after => Sweeping codec start operation plan after) True)
  · exact write_purge_comes _ _ _ faults (.inl opened) (.inr (sweeping_closed sweeping)) sweeping
  · intro _ seen _ swept
    obtain ⟨state, rest⟩ := seen
    apply safe_tries _ _ (fun outcome seen => finishes codec start operation plan rest outcome seen ∧
      Closed codec start operation plan seen.state)
    · refine safe_weaken _ _ (fun _ closed => .inr closed) _ _ _ (Prog.safe_mono _ _ _ _ (fun _ _ here ends => ⟨ends, here⟩)
        (finish_safe removes _ committed (.inl rfl) swept.1 rest))
    · intro outcome seen here ends
      obtain ⟨state, rest⟩ := seen
      cases outcome with
      | ok counted => exact safe_done _ _ _ here ends.1.1
      | error failed => exact note_safe ends.2 _ (own_status journal own failed.1 (some failed.2)) ends.1.1 rest failed.2
  · exact fun _ _ _ _ => trivial

theorem plan_comes {crash : PurgeRepository → Prop} (settled : SettledPurges codec start) (here : crash start)
    (requested : List String) (purgeAll : Bool) (faults : List Bool) :
    SafeAccess crash (planLocalTrashPurge codec requested purgeAll)
      (comesTo faults (fun plan after => planTrashPurge codec start.toMarkedRepository requested purgeAll = .ok plan ∧
        after = start) True)
      ⟨start, faults⟩ := by
  apply safe_probe _ _ _ _ here
  apply comes_check _ _ _ _ _ _ here
  · intro _ _
    apply comes_then _ _ _ _ _ _ _ (recover_settled settled True here faults)
    intro _ state rest _ same
    subst same
    apply comes_then _ _ (fun _ after => after = state)
    · exact comes_inspect _ _ _ state rest here (fun _ _ => rfl) fun _ _ => trivial
    intro _ other rest _ same
    subst same
    apply comes_check _ _ _ _ _ _ here
    · exact fun _ _ => comes_inspect _ _ _ other rest here (fun plan planned => ⟨planned, rfl⟩) fun _ _ => trivial
    · exact fun _ _ => trivial
  · exact fun _ _ => trivial

theorem run_safe (removes : Removes codec start plan reached all) (fresh : FreshPurge codec operation start) (faults : List Bool) :
    SafeAccess (Purging codec start operation plan) (runPurge codec operation plan)
      (Reports codec start operation plan) ⟨start, faults⟩ := by
  have begun : Prepared codec start operation plan start := prepared_start fresh
  obtain ⟨made, ranEntries, moved, files, objects, entries⟩ := make_entries_runs start (stagingRootOf codec operation)
  have ready := prepared_moved begun made moved files objects entries
  obtain ⟨both, ranObjects, moved, files, objects, entries, _⟩ := make_objects_runs made (stagingRootOf codec operation)
  have prepared := prepared_moved ready both moved files objects entries
  have own : OwnPurge codec operation plan (newPurge codec operation plan) := ⟨_, _, rfl⟩
  have working := working_journal prepared.toUnmoved _ own (.inl rfl)
  apply safe_change _ _ _ _ (.inl (prepared_opened begun))
  · intro after rest ran
    rw [ranEntries, Except.ok.injEq] at ran
    subst ran
    apply safe_change _ _ _ _ (.inl (prepared_opened ready))
    · intro after rest ran
      rw [ranObjects, Except.ok.injEq] at ran
      subst ran
      apply safe_then _ _ (comesTo rest (fun _ after => Working codec start operation plan after) True)
      · exact write_purge_comes _ _ _ rest (.inl (prepared_opened prepared)) (.inl (working_opened working)) working
      · intro _ seen _ works
        obtain ⟨state, rest⟩ := seen
        apply safe_tries _ _ (fun outcome seen =>
          comesTo rest (fun _ after => StagedUpTo codec start operation plan [] after) True outcome seen ∧
          Working codec start operation plan seen.state)
        · exact safe_weaken _ _ (fun _ works => .inl (working_opened works)) _ _ _
            (Prog.safe_mono _ _ _ _ (fun _ _ here ends => ⟨ends, here⟩) (stage_entries_comes _ own works.1 rest))
        · intro outcome seen _ ends
          obtain ⟨state, rest⟩ := seen
          cases outcome with
          | ok _ => exact commit_safe removes ends.1.1 _ own rest
          | error error =>
              apply safe_then _ _ (comesTo rest (fun _ _ => True) True)
              · exact safe_weaken _ _ (fun _ opened => .inl opened) _ _ _
                  (comes_mono _ _ _ _ _ _ _ (fun _ _ _ _ => trivial) (fun _ => trivial)
                  (rollback_comes _ own ends.2 rest))
              · exact fun _ _ here _ => safe_result _ _ _ here trivial
              · exact fun _ _ _ _ => trivial
      · exact fun _ _ _ _ => trivial
    · exact fun _ _ => trivial
  · exact fun _ _ => trivial

-- Up to the plan nothing has moved.
theorem purge_plans {crash : PurgeRepository → Prop} (settled : SettledPurges codec start) (here : crash start)
    (expected : LocalTrashPurgePlanV4) (post : Except String LocalTrashPurgeResultV4 → Faulty PurgeRepository → Prop)
    (fails : ∀ error seen, post (.error error) seen)
    (runs : ∀ plan faults, planTrashPurge codec start.toMarkedRepository expected.operationIds false = .ok plan →
      SafeAccess crash (runPurge codec operation plan) post ⟨start, faults⟩) (faults : List Bool) :
    SafeAccess crash (purgeLocalTrash codec operation expected) post ⟨start, faults⟩ := by
  apply safe_then _ _ _ _ _ (recover_settled settled True here faults)
  · intro _ seen _ left
    obtain ⟨state, rest⟩ := seen
    have same : state = start := left.1
    rw [same]
    apply safe_then _ _ _ _ _ (plan_comes settled here expected.operationIds false rest)
    · intro plan seen _ left
      obtain ⟨state, rest⟩ := seen
      have same : state = start := left.1.2
      rw [same]
      apply safe_check _ _ _ _ here
      · exact fun _ _ => runs plan rest left.1.1
      · exact fun error _ => fails error _
    · exact fun error seen _ _ => fails error seen
  · exact fun error seen _ _ => fails error seen

def Untouched (start repository : PurgeRepository) : Prop := repository = start

theorem untouched_start : Untouched start start := rfl

theorem unplanned_safe (settled : SettledPurges codec start) (expected : LocalTrashPurgePlanV4) (faults : List Bool)
    (unplanned : ∀ plan, planTrashPurge codec start.toMarkedRepository expected.operationIds false ≠ .ok plan) :
    SafeAccess (Untouched start) (purgeLocalTrash codec operation expected) (fun _ _ => True) ⟨start, faults⟩ :=
  purge_plans settled untouched_start expected (fun _ _ => True) (fun _ _ => trivial)
    (fun plan _ planned => absurd planned (unplanned plan)) faults

theorem purge_safe (removes : Removes codec start plan reached all) (settled : SettledPurges codec start)
    (fresh : FreshPurge codec operation start) (expected : LocalTrashPurgePlanV4)
    (planned : planTrashPurge codec start.toMarkedRepository expected.operationIds false = .ok plan)
    (faults : List Bool) :
    SafeAccess (Purging codec start operation plan) (purgeLocalTrash codec operation expected) (Reports codec start operation plan)
      ⟨start, faults⟩ := by
  refine purge_plans settled (.inl (prepared_opened (prepared_start fresh))) expected _ (fun _ _ => trivial)
    (fun other faults again => ?_) faults
  rw [planned, Except.ok.injEq] at again
  rw [← again]
  exact run_safe removes fresh faults

end Purge

section Ends

variable {codec : PurgeCodec} {start : PurgeRepository} {operation : String} {plan : LocalTrashPurgePlanV4}
    {repository : PurgeRepository}
  {reached all : List StorageObjectRefV4}

-- The journal says that there is no way back.
def Committed (operation : String) (repository : PurgeRepository) : Prop :=
  ∃ journal, repository.purges[operation]? = some journal ∧ (Committing journal.status ∨ journal.status = .completed)

-- Everything but the journal of the purge and its empty directories is as before.
structure Restored (codec : PurgeCodec) (operation : String) (start after : PurgeRepository) : Prop where
  files : after.files = start.files
  snapshots : after.snapshots = start.snapshots
  trash : after.trash = start.trash
  journals : after.journals = start.journals
  index : after.sourceIndex = start.sourceIndex
  others : ∀ name, name ≠ operation → after.purges[name]? = start.purges[name]?
  entries : ∀ operationId, after.stagedEntry (stagingRootOf codec operation) operationId = none
  objects : ∀ name, after.stagedObject (stagingRootOf codec operation) name = none

-- The selected entries are gone and of the objects exactly the planned ones.
structure Purged (codec : PurgeCodec) (operation : String) (plan : LocalTrashPurgePlanV4) (start after : PurgeRepository) : Prop where
  files : after.files = without start.files (PurgedNames plan)
  snapshots : after.snapshots = start.snapshots
  trash : after.trash = purgedTrash start.toMarkedRepository plan
  journals : after.journals = start.journals
  index : after.sourceIndex = none
  others : ∀ name, name ≠ operation → after.purges[name]? = start.purges[name]?
  staging : after.staging[stagingRootOf codec operation]? = none

theorem opened_restored (opened : Opened codec start operation plan repository) (rests : Rests operation repository) :
    Restored codec operation start repository :=
  ⟨opened.files, opened.snapshots, Std.ExtTreeMap.ext_getElem? fun operationId =>
    (opened.rests rests operationId).1, opened.journals, opened.index,
    opened.others, fun operationId => (opened.rests rests operationId).2, opened.objects⟩

theorem finished_purged (finished : Finished codec start operation plan repository) :
    Purged codec operation plan start repository := by
  refine ⟨Std.ExtTreeMap.ext_getElem? fun name => ?_, finished.snapshots, finished.trash, finished.journals, finished.unindexed,
    finished.others, finished.cleared⟩
  rw [lookup_without]
  by_cases lost : name ∈ PurgedNames plan
  · rw [if_pos lost]
    exact finished.gone name lost
  · rw [if_neg lost]
    exact (finished.files name).resolve_right fun gone => lost gone.1

theorem opened_uncommitted (opened : Opened codec start operation plan repository) : ¬Committed operation repository := by
  intro committed
  obtain ⟨journal, stored, course⟩ := committed
  rcases opened.status journal stored with same | same | same <;> simp [same, Committing] at course

theorem closed_committed (closed : Closed codec start operation plan repository) : Committed operation repository := by
  obtain ⟨journal, stored, course⟩ := closed.journal
  exact ⟨journal, stored, course.imp_right And.left⟩

-- A recovery that nothing disturbs does what it is for.
theorem recovery_runs {crash : PurgeRepository → Prop} {good : Unit → PurgeRepository → Prop} {blocked : Prop} (open_ : ¬blocked)
    (safe : SafeAccess crash (recoverLocalTrashPurges codec) (comesTo [] good blocked) ⟨repository, []⟩) :
    ∃ after, (recoverLocalTrashPurges codec).exec ⟨repository, []⟩ = (.ok (), ⟨after, []⟩) ∧ good () after := by
  have ends := ((Prog.safe_iff _ _ _).mp safe).2
  cases ran : (recoverLocalTrashPurges codec).exec ⟨repository, []⟩ with
  | mk outcome seen =>
      obtain ⟨after, faults⟩ := seen
      rw [ran] at ends
      cases outcome with
      | error error => exact absurd (ends rfl) open_
      | ok value =>
          have calm : faults = [] := ends.2 rfl
          exact ⟨after, by rw [calm], ends.1⟩

theorem settled_again (settled : SettledPurges codec start) (frame : PurgeFrame codec start operation plan repository)
    (ended : ∀ journal, repository.purges[operation]? = some journal → Ended journal.status)
    (readable : ∀ journal, repository.purges[operation]? = some journal → Readable codec journal) :
    SettledPurges codec repository := by
  intro name journal stored
  by_cases mine : name = operation
  · subst mine
    obtain ⟨version, root⟩ := own_checks journal (frame.own journal stored)
    exact ⟨readable journal stored, version, root, ended journal stored⟩
  · exact settled name journal ((frame.others name mine).symm.trans stored)

theorem recovery_settled (settled : SettledPurges codec repository) :
    (recoverLocalTrashPurges codec).exec ⟨repository, []⟩ = (.ok (), ⟨repository, []⟩) := by
  have safe : SafeAccess (fun _ =>
    True) (recoverLocalTrashPurges codec) (comesTo [] (fun _ after => after = repository) False) ⟨repository, []⟩ :=
    recover_settled settled False trivial []
  obtain ⟨after, ran, same⟩ := recovery_runs (fun impossible => impossible) safe
  exact same ▸ ran

-- Wherever a purge is cut off, and however often its recovery is, the next recovery that
-- runs through undoes it or completes it, as the journal says.
theorem purge_recovers (settled : SettledPurges codec start) (fresh : FreshPurge codec operation start)
    (canonical : CanonicalManifests codec.toMarkCodec start.files) (expected : LocalTrashPurgePlanV4) (faults : List Bool)
    (cut later : Faulty PurgeRepository) (began : (purgeLocalTrash codec operation expected).Cut ⟨start, faults⟩ cut)
    (again : Prog.Restarted (recoverLocalTrashPurges codec) cut later)
    (readable : ∀ journal, later.state.purges[operation]? = some journal → Readable codec journal) :
    ∃ after, (recoverLocalTrashPurges codec).exec ⟨later.state, []⟩ = (.ok (), ⟨after, []⟩) ∧
      (¬Committed operation cut.state ∧ Restored codec operation start after ∨
        Committed operation cut.state ∧ ∃ plan, planTrashPurge codec start.toMarkedRepository expected.operationIds false = .ok plan ∧
          Purged codec operation plan start after) ∧
      ((∀ journal, after.purges[operation]? = some journal → Readable codec journal) →
        (recoverLocalTrashPurges codec).exec ⟨after, []⟩ = (.ok (), ⟨after, []⟩)) := by
  by_cases planned : ∃ plan, planTrashPurge codec start.toMarkedRepository expected.operationIds false = .ok plan
  · obtain ⟨plan, planned⟩ := planned
    obtain ⟨reached, all, rests⟩ := purge_planned planned
    have removes : Removes codec start plan reached all := ⟨rests, canonical⟩
    have clear : ¬∃ journal, later.state.purges[operation]? = some journal ∧ ¬Readable codec journal := fun found => by
      obtain ⟨journal, stored, unreadable⟩ := found
      exact unreadable (readable journal stored)
    rcases ((Prog.safe_iff _ _ _).mp (purge_safe removes settled fresh expected planned faults)).1 cut began with opened | closed
    · have still : Opened codec start operation plan later.state := Prog.restarted_keep _ (fun device here =>
        Prog.safe_mono _ _ _ _ (fun _ _ _ _ => trivial) (recover_opened settled here device.faults)) cut later opened again
      obtain ⟨after, ran, ends⟩ := recovery_runs clear (recover_opened settled still [])
      refine ⟨after, ran, .inl ⟨opened_uncommitted opened, opened_restored ends.1 ends.2⟩, fun fits => ?_⟩
      exact recovery_settled (settled_again settled ends.1.toPurgeFrame (fun journal stored => .inr (ends.2 journal stored)) fits)
    · have still : Closed codec start operation plan later.state := Prog.restarted_keep _ (fun device here =>
        Prog.safe_mono _ _ _ _ (fun _ _ _ _ => trivial) (recover_closed removes settled here device.faults)) cut later closed again
      obtain ⟨after, ran, ends⟩ := recovery_runs clear (recover_closed removes settled still [])
      refine ⟨after, ran, .inr ⟨closed_committed closed, plan, planned, finished_purged ends⟩, fun fits => ?_⟩
      refine recovery_settled (settled_again settled ends.toPurgeFrame (fun journal stored => .inl ?_) fits)
      obtain ⟨last, there, completed⟩ := ends.journal
      rw [there, Option.some.injEq] at stored
      exact stored ▸ completed
  · have same : Untouched start cut.state :=
      ((Prog.safe_iff _ _ _).mp (unplanned_safe settled expected faults fun plan found => planned ⟨plan, found⟩)).1 cut began
    have idle : Untouched start later.state := by
      refine Prog.restarted_keep _ (fun device (here : Untouched start device.state) => ?_) cut later same again
      obtain ⟨state, faults⟩ := device
      have here : state = start := here
      rw [here]
      exact Prog.safe_mono _ _ _ _ (fun _ _ _ _ => trivial) (recover_settled settled True untouched_start faults)
    have ran := recovery_settled settled
    rw [Untouched] at same idle
    refine ⟨start, idle ▸ ran, .inl ⟨fun committed => ?_, ?_⟩, fun _ => ran⟩
    · obtain ⟨journal, stored, _⟩ := committed
      rw [same, fresh.unwritten] at stored
      cases stored
    · have prepared : Prepared codec start operation expected start := prepared_start fresh
      refine opened_restored (prepared_opened prepared) fun journal stored => ?_
      rw [fresh.unwritten] at stored
      cases stored

end Ends

-- A journal that the recovery does not read stops it.
theorem recovery_refused {codec : PurgeCodec} {repository : PurgeRepository} (operation : String) (journal : LocalTrashPurgeJournalV4)
    (only : repository.purges = (∅ : Std.ExtTreeMap String LocalTrashPurgeJournalV4).insert operation journal)
    (unreadable : ¬Readable codec journal) :
    (recoverLocalTrashPurges codec).exec ⟨repository, []⟩ = (.error "object exceeds size limit", ⟨repository, []⟩) := by
  have names : repository.purges.keys = [operation] := by
    rw [only, ← Std.ExtTreeMap.map_fst_toList_eq_keys, Keyed.single_to_list]
    rfl
  have read : readPurgeJournal codec operation repository = .error "object exceeds size limit" := by
    have refused : ensure (fileLength (codec.journalText journal) ≤ maxRootBytes) "object exceeds size limit" =
      .error "object exceeds size limit" := by
      rw [ensure, if_neg]
      exact unreadable
    rw [readPurgeJournal, only, Keyed.lookup_insert, if_pos rfl, present]
    simp only [refused]
    rfl
  rw [recoverLocalTrashPurges, Prog.exec_bind, quiet_inspect, names]
  simp only [Prog.forEach, Prog.exec_bind, recoverPurge, quiet_inspect, read]

section Cuts

variable {codec : PurgeCodec} {start : PurgeRepository} {operation : String} {plan : LocalTrashPurgePlanV4}

theorem settled_without (unwritten : start.purges = ∅) : SettledPurges codec start := by
  intro name journal stored
  rw [unwritten, Std.ExtTreeMap.getElem?_empty] at stored
  cases stored

theorem plan_quiet (settled : SettledPurges codec start) (marker : start.formatMarker = true) (idle : start.journals = ∅)
    (requested : List String) (planned : planTrashPurge codec start.toMarkedRepository requested false = .ok plan) :
    (planLocalTrashPurge codec requested false).exec ⟨start, []⟩ = (.ok plan, ⟨start, []⟩) := by
  have nothing : nonTerminalRepositoryJournals codec start = .ok [] := by
    have none_ : start.journals.toList = [] := by
      rw [idle]
      rfl
    rw [nonTerminalRepositoryJournals, none_]
    rfl
  have passes : ∀ message : String, ensure True message = .ok () := fun _ => rfl
  simp only [planLocalTrashPurge, Prog.exec_bind, quiet_probe, marker, Prog.exec_of_except, recovery_settled settled, quiet_inspect,
    nothing, passes, planned]

-- A planned purge is cut off wherever its run is.
theorem purge_cut (seen : Faulty PurgeRepository) (settled : SettledPurges codec start)
    (planned : (planLocalTrashPurge codec plan.operationIds false).exec ⟨start, []⟩ = (.ok plan, ⟨start, []⟩))
    (cut : (runPurge codec operation plan).Cut ⟨start, []⟩ seen) : (purgeLocalTrash codec operation plan).Cut ⟨start, []⟩ seen := by
  have same : ensure (plan.planFingerprint = plan.planFingerprint) "local trash purge plan became stale" = .ok () :=
    (ensure_ok _ _ _).mpr rfl
  apply Prog.cut_later _ _ _ _ _ () (recovery_settled settled)
  apply Prog.cut_later _ _ _ _ _ plan planned
  exact Prog.cut_later _ _ _ ⟨start, []⟩ _ () (by rw [same]; rfl) cut

theorem write_purge_runs (repository : PurgeRepository) (journal : LocalTrashPurgeJournalV4) :
    (writePurgeJournal operation journal).exec ⟨repository, []⟩ = (.ok (), ⟨repository.setPurge operation journal, []⟩) := by
  rw [writePurgeJournal, fallible, Prog.exec_bind, quiet_touch]
  exact quiet_touch _ _

-- A run up to the first journal.
theorem purge_prepares (settled : SettledPurges codec start)
    (planned : (planLocalTrashPurge codec plan.operationIds false).exec ⟨start, []⟩ = (.ok plan, ⟨start, []⟩)) :
    ∃ cut : Faulty PurgeRepository, (purgeLocalTrash codec operation plan).Cut ⟨start, []⟩ cut ∧
      cut.state.purges[operation]? = some (newPurge codec operation plan) := by
  obtain ⟨entries, ranEntries, _⟩ := make_entries_runs start (stagingRootOf codec operation)
  obtain ⟨objects, ranObjects, _⟩ := make_objects_runs entries (stagingRootOf codec operation)
  refine ⟨⟨objects.setPurge operation (newPurge codec operation plan), []⟩, purge_cut _ settled planned ?_, stored_purge _⟩
  apply Prog.cut_later _ _ _ ⟨entries, []⟩ _ () (by rw [quiet_touch, ranEntries]; rfl)
  apply Prog.cut_later _ _ _ ⟨objects, []⟩ _ () (by rw [quiet_touch, ranObjects]; rfl)
  exact Prog.cut_later _ _ _ _ _ () (write_purge_runs objects _) (Prog.cut_begins _ _)

-- A run up to the first entry in the staging directory.
theorem purge_stages (first : String) (rest : List String) (directory : TrashDirectory) (listed : plan.operationIds = first :: rest)
    (held : start.trash[first]? = some directory) (settled : SettledPurges codec start)
    (unstaged : start.staging[stagingRootOf codec operation]? = none)
    (planned : (planLocalTrashPurge codec plan.operationIds false).exec ⟨start, []⟩ = (.ok plan, ⟨start, []⟩)) :
    ∃ after : PurgeRepository, (purgeLocalTrash codec operation plan).Cut ⟨start, []⟩ ⟨after, []⟩ ∧
      after.toMarkedRepository = { start.toMarkedRepository with trash := start.trash.erase first } ∧
      after.purges = start.purges.insert operation (newPurge codec operation plan) ∧
      after.stagedEntry (stagingRootOf codec operation) first = some directory := by
  let root := stagingRootOf codec operation
  let made := start.setStaging root ⟨some ∅, none⟩
  let both := made.setStaging root ⟨some ∅, some ∅⟩
  let noted := both.setPurge operation (newPurge codec operation plan)
  let staged : PurgeRepository :=
    { noted.setStaging root ⟨some ((∅ : Std.ExtTreeMap String TrashDirectory).insert first directory), some ∅⟩ with
    trash := noted.trash.erase first }
  have entries : makeEntries root start = .ok made := by
    rw [makeEntries, unstaged]
    rfl
  have objects : makeObjects root made = .ok both := by
    rw [makeObjects, staging_set]
    rfl
  have moves : stageEntry root first noted = .ok staged := by
    have there : noted.staging[root]? = some ⟨some ∅, some ∅⟩ := staging_set _
    have home : noted.trash[first]? = some directory := held
    simp only [stageEntry, bind_ok, found_ok, pure_ok]
    exact ⟨directory, home, _, there, ∅, rfl, rfl⟩
  refine ⟨staged, purge_cut _ settled planned ?_, rfl, rfl, ?_⟩
  · apply Prog.cut_later _ _ _ ⟨made, []⟩ _ () (by rw [quiet_touch, entries]; rfl)
    apply Prog.cut_later _ _ _ ⟨both, []⟩ _ () (by rw [quiet_touch, objects]; rfl)
    apply Prog.cut_later _ _ _ _ _ () (write_purge_runs both _)
    apply Prog.cut_first
    apply Prog.cut_attempt
    apply Prog.cut_first
    have order : (newPurge codec operation plan).plan.operationIds = first :: rest := listed
    rw [order, Prog.forEach]
    apply Prog.cut_first
    have ends := Prog.cut_exec (touch (stageEntry root first)) (⟨noted, []⟩ : Faulty PurgeRepository)
    rw [quiet_touch, moves] at ends
    exact ends
  · refine (staged_entry_in _ (staging_set _) first).trans ?_
    rw [Option.bind_some, Keyed.lookup_insert, if_pos rfl]

end Cuts

namespace PurgeSample

def purgeId : String := "01890a5d-ac96-774b-bcce-b302099a8058"

def begun : PurgeRepository :=
  { repository with formatMarker := true, purges := ∅, journals := ∅, staging := ∅, sourceIndex := none }

-- The same before any purge of other files.
def begunOver (files : Files) : PurgeRepository := { begun with files := files }

theorem begun_settled (files : Files) : SettledPurges codec (begunOver files) := settled_without rfl

theorem begun_fresh (files : Files) : FreshPurge codec purgeId (begunOver files) :=
  ⟨Std.ExtTreeMap.getElem?_empty, Std.ExtTreeMap.getElem?_empty⟩

theorem purge_journal_short (freed metadata : UInt64) : Readable codec (newPurge codec purgeId (planWith freed metadata)) := by
  have four : (Nat.toDigits 10 1).length = 1 := by decide
  have narrow : ∀ name fingerprint, (writeString name).length ≤ 428 → (writeString fingerprint).length ≤ 428 →
      width sampleLib (LocalTrashPurgeJournalV4.toValue ⟨1, purgeId, .preparing, "/r", stagingRootOf codec purgeId,
        ⟨1, "now", [operation], 1, [⟨.snapshotOverlay, name, fileLength overlayText⟩], freed, metadata, 0, fingerprint⟩, "now",
          "now", none⟩) ≤ 4000 := by
    intro name fingerprint digest mark
    have length := digits_length (fileLength overlayText)
    have objects := digits_length freed
    have entries := digits_length metadata
    simp [four, LocalTrashPurgeJournalV4.toValue, LocalTrashPurgePlanV4.toValue, LocalTrashPurgeStatusV4.wireName,
      StorageObjectRefV4.toValue, StorageObjectKindV4.wireName, stagingRootOf, codec, purgeId, operation, width, widthFields,
        widthElements, Value.nat, writeNumber, writeString,
      escapeChar] at digest mark length objects entries ⊢
    omega
  rw [Readable, UInt64.le_iff_toNat_le]
  refine (short _ 4000 (narrow _ _ (write_digest_length sampleLib overlayText) (write_digest_length sampleLib _))).trans (by decide)

-- The power fails when the journal says `preparing`.
theorem purge_recovers_sample : ∃ plan, planTrashPurge codec repository [operation] false = .ok plan ∧
    ∃ cut : Faulty PurgeRepository, (purgeLocalTrash codec purgeId plan).Cut ⟨begun, []⟩ cut ∧
      cut.state.purges[purgeId]? = some (newPurge codec purgeId plan) ∧
      ∃ after, (recoverLocalTrashPurges codec).exec ⟨cut.state, []⟩ = (.ok (), ⟨after, []⟩) ∧ Restored codec purgeId begun after := by
  obtain ⟨freed, metadata, planned⟩ := sample_planned
  have ids : (planWith freed metadata).operationIds = [operation] := rfl
  have quiet := plan_quiet (begun_settled repository.files) rfl rfl [operation] planned
  rw [← ids] at quiet
  obtain ⟨cut, began, held⟩ := purge_prepares (begun_settled repository.files) quiet
  have canonical : CanonicalManifests codec.toMarkCodec begun.files := fun sha256 bytes manifest _ decoded => no_value _ _ decoded
  obtain ⟨after, ran, ends, _⟩ := purge_recovers (begun_settled repository.files) (begun_fresh repository.files) canonical _ [] cut
    cut began Relation.ReflTransGen.refl
    (fun journal stored => by
      rw [held, Option.some.injEq] at stored
      exact stored ▸ purge_journal_short freed metadata)
  refine ⟨_, planned, cut, began, held, after, ran, ?_⟩
  rcases ends with ⟨_, restored⟩ | ⟨committed, _⟩
  · exact restored
  · obtain ⟨journal, stored, status⟩ := committed
    rw [held, Option.some.injEq] at stored
    subst stored
    simp [newPurge, Committing] at status

-- The number in 64 digits.
def chunkDigits (i : Nat) : List Char := (List.range 64).map fun k => if i.testBit k then '1' else '0'

def chunkName (i : Nat) : String := String.ofList ("sha256:".toList ++ chunkDigits i)

theorem named_valid (digits : List Char) (length : digits.length = 64) (lower : digits.all isLowerHex = true) :
    validSha256 (String.ofList ("sha256:".toList ++ digits)) = true := by
  have size : "sha256:".toList.length = 7 := by decide
  unfold validSha256
  rw [String.toList_ofList, List.splitAt_eq, List.take_left' size, List.drop_left' size]
  simp only [length, lower, decide_true, Bool.and_self]

theorem named_injective (left right : List Char)
    (same : String.ofList ("sha256:".toList ++ left) = String.ofList ("sha256:".toList ++ right)) : left = right :=
  List.append_cancel_left (String.ofList_injective same)

theorem chunk_digits_length (i : Nat) : (chunkDigits i).length = 64 := by rw [chunkDigits, List.length_map, List.length_range]

theorem chunk_digits_lower (i : Nat) : (chunkDigits i).all isLowerHex = true := by
  rw [List.all_eq_true]
  intro c member
  obtain ⟨k, _, same⟩ := List.mem_map.mp member
  rw [← same]
  split_ifs <;> decide

theorem chunk_name_valid (i : Nat) : validSha256 (chunkName i) = true := named_valid _ (chunk_digits_length i) (chunk_digits_lower i)

theorem chunk_name_injective (i j : Nat) (first : i < 2 ^ 64) (second : j < 2 ^ 64) (same : chunkName i = chunkName j) : i = j := by
  have digits := named_injective _ _ same
  refine Nat.eq_of_testBit_eq fun k => ?_
  by_cases low : k < 64
  · have digit := List.map_inj_left.mp digits k (List.mem_range.mpr low)
    cases one : i.testBit k <;> cases other : j.testBit k <;> simp [one, other] at digit ⊢
  · have wide : 2 ^ 64 ≤ 2 ^ k := Nat.pow_le_pow_right (by decide) (by omega)
    rw [Nat.testBit_lt_two_pow (by omega), Nat.testBit_lt_two_pow (by omega)]

-- The files of the sample beside chunks that nothing reaches.
def crowdedFiles : Nat → Files
  | 0 => repository.files
  | n + 1 => (crowdedFiles n).insert (.chunk, chunkName n) [0]

theorem crowded_overlay (n : Nat) : (crowdedFiles n)[((.snapshotOverlay, overlayName) : ObjectName)]? = some overlayText := by
  induction n with
  | zero => exact overlay_held
  | succ n ih => rw [crowdedFiles, Keyed.lookup_insert, if_neg (by simp), ih]

theorem crowded_cases (n : Nat) (name : ObjectName) (bytes : Bytes) (held : (crowdedFiles n)[name]? = some bytes) :
    (∃ i < n, name = (.chunk, chunkName i) ∧ bytes = [0]) ∨ name = (.snapshotOverlay, overlayName) ∧ bytes = overlayText := by
  induction n with
  | zero =>
      rw [crowdedFiles, repository, Keyed.lookup_insert] at held
      split_ifs at held with same
      · exact .inr ⟨same, (Option.some.inj held).symm⟩
      · simp at held
  | succ n ih =>
      rw [crowdedFiles, Keyed.lookup_insert] at held
      split_ifs at held with same
      · exact .inl ⟨n, Nat.lt_succ_self n, same, (Option.some.inj held).symm⟩
      · rcases ih held with ⟨i, before, chunk⟩ | first
        · exact .inl ⟨i, Nat.lt_succ_of_lt before, chunk⟩
        · exact .inr first

theorem crowded_size (n : Nat) (few : n < 2 ^ 64) : (crowdedFiles n).toList.length = n + 1 := by
  rw [Std.ExtTreeMap.length_toList]
  induction n with
  | zero =>
      have one := Std.ExtTreeMap.length_toList (t := crowdedFiles 0)
      rw [crowdedFiles, one_file] at one
      exact one.symm
  | succ n ih =>
      have fresh : ((.chunk, chunkName n) : ObjectName) ∉ crowdedFiles n := by
        intro member
        obtain ⟨bytes, held⟩ := Option.isSome_iff_exists.mp (Std.ExtTreeMap.mem_iff_isSome_getElem?.mp member)
        rcases crowded_cases n _ bytes held with ⟨i, before, same, _⟩ | ⟨same, _⟩
        · have alike := chunk_name_injective n i (by omega) (by omega) (Prod.mk.inj same).2
          omega
        · cases (Prod.mk.inj same).1
      rw [crowdedFiles, Std.ExtTreeMap.size_insert, if_neg fun there =>
        fresh (Std.ExtTreeMap.mem_iff_contains.mpr there), ih (by omega)]

theorem crowded_listed (n : Nat) (file : ObjectName × Bytes) (member : file ∈ (crowdedFiles n).toList) :
    (∃ i, file = ((.chunk, chunkName i), [0])) ∨ file = ((.snapshotOverlay, overlayName), overlayText) := by
  obtain ⟨name, bytes⟩ := file
  have held := Std.ExtTreeMap.mem_toList_iff_getElem?_eq_some.mp member
  rcases crowded_cases n name bytes held with ⟨i, _, same, rest⟩ | ⟨same, rest⟩
  · exact .inl ⟨i, by rw [same, rest]⟩
  · exact .inr (by rw [same, rest])

theorem crowded_rootless (n : Nat) : revisionRoots (crowdedFiles n) = [] := by
  rw [revisionRoots, List.map_eq_nil_iff, List.filter_eq_nil_iff]
  intro file member
  rcases crowded_listed n file member with ⟨i, same⟩ | same <;> simp [same]

theorem crowded_names (n : Nat) (file : ObjectName × Bytes) (member : file ∈ (crowdedFiles n).toList) :
    validSha256 file.1.2 = true ∧ (fileLength file.2).toNat ≤ 4000 := by
  rcases crowded_listed n file member with ⟨i, same⟩ | same
  · rw [same]
    exact ⟨chunk_name_valid i, (by decide : (fileLength [0]).toNat ≤ 4000)⟩
  · rw [same]
    exact ⟨digest_bytes_valid _ _, overlay_short⟩

def crowdedObjects (n : Nat) : List StorageObjectRefV4 := (crowdedFiles n).toList.map fileRef

theorem crowded_all (n : Nat) : enumerateRepositoryObjects (crowdedFiles n) StorageObjectKindV4.all = .ok (crowdedObjects n) := by
  have every : (crowdedFiles n).toList.filter (fun file => file.1.1 ∈ StorageObjectKindV4.all) = (crowdedFiles n).toList :=
    List.filter_eq_self.mpr fun file _ => decide_eq_true (every_kind _)
  rw [enumerateRepositoryObjects, every]
  refine map_each_fixed _ _ _ fun file member => ?_
  simp only [enumerateOne, validateSha256V4, bind_ok, ensure_ok, pure_ok]
  exact ⟨(), (crowded_names n file member).1, trivial⟩

theorem crowded_objects_length (n : Nat) (few : n < 2 ^ 64) : (crowdedObjects n).length = n + 1 := by
  rw [crowdedObjects, List.length_map, crowded_size n few]

theorem crowded_fits (n : Nat) (few : n ≤ 2 ^ 20) :
    (((crowdedObjects n).map StorageObjectRefV4.byteLength).map UInt64.toNat).sum < 2 ^ 64 := by
  have each : ∀ length ∈ ((crowdedObjects n).map StorageObjectRefV4.byteLength).map UInt64.toNat, length ≤ 4000 := by
    intro length member
    rw [crowdedObjects, List.map_map, List.map_map] at member
    obtain ⟨file, listed, same⟩ := List.mem_map.mp member
    rw [← same]
    exact (crowded_names n file listed).2
  have sum := List.sum_le_card_nsmul _ _ each
  rw [List.length_map, List.length_map, crowded_objects_length n (by omega), smul_eq_mul] at sum
  omega

theorem crowded_planned (n : Nat) (few : n ≤ 2 ^ 20) :
    ∃ freed metadata, planTrashPurge codec (sampleOver (crowdedFiles n)) [operation] false =
      .ok (planOver (crowdedObjects n) freed metadata) :=
  planned_over _ _ (crowded_overlay n) (crowded_rootless n) (crowded_all n) (crowded_fits n few)

theorem valid_length (text : String) (valid : validSha256 text = true) : text.toList.length = 71 := by
  simp only [validSha256, List.splitAt_eq, Bool.and_eq_true, decide_eq_true_eq] at valid
  have start := congrArg List.length valid.1.1
  have size : "sha256:".toList.length = 7 := by decide
  rw [List.length_take, size] at start
  rw [List.length_drop] at valid
  omega

theorem object_width (object : StorageObjectRefV4) (valid : validSha256 object.sha256 = true) :
    115 ≤ width sampleLib object.toValue ∧ width sampleLib object.toValue ≤ 600 := by
  have name := valid_length _ valid
  have more := write_string_length object.sha256
  have less := escape_longer object.sha256.toList
  have digits := digits_length object.byteLength
  have kind : (writeString object.kind.wireName).length ≤ 40 ∧ 7 ≤ (writeString object.kind.wireName).length :=
    by cases object.kind <;> decide
  have some_ : 1 ≤ (Nat.toDigits 10 object.byteLength.toNat).length := List.length_pos_of_ne_nil Nat.toDigits_ne_nil
  have kindKey : (writeString "kind").length = 6 := by decide
  have nameKey : (writeString "sha256").length = 8 := by decide
  have lengthKey : (writeString "byteLength").length = 12 := by decide
  have quoted : (writeString object.sha256).length = (object.sha256.toList.flatMap escapeChar).length + 2 := by simp [writeString]
  simp only [StorageObjectRefV4.toValue, width, widthFields, Value.nat, writeNumber, kindKey, nameKey, lengthKey]
  omega

theorem objects_width (objects : List StorageObjectRefV4) (valid : ∀ object ∈ objects, validSha256 object.sha256 = true) :
    116 * objects.length ≤ widthElements sampleLib (objects.map StorageObjectRefV4.toValue) ∧
      widthElements sampleLib (objects.map StorageObjectRefV4.toValue) ≤ 601 * objects.length := by
  induction objects with
  | nil => exact ⟨Nat.le_refl _, Nat.le_refl _⟩
  | cons object rest ih =>
      obtain ⟨first, others⟩ := List.forall_mem_cons.mp valid
      have one := object_width object first
      have later := ih others
      simp only [List.map_cons, widthElements, List.length_cons]
      omega

theorem crowded_unreadable (n : Nat) (many : 300000 ≤ n) (few : n ≤ 2 ^ 20) (freed metadata : UInt64) :
    ¬Readable codec (newPurge codec purgeId (planOver (crowdedObjects n) freed metadata)) := by
  have four : (Nat.toDigits 10 1).length = 1 := by decide
  have bounds : ∀ objects fingerprint, (writeString fingerprint).length ≤ 428 →
      widthElements sampleLib (objects.map StorageObjectRefV4.toValue) ≤
        width sampleLib (LocalTrashPurgeJournalV4.toValue ⟨1, purgeId, .preparing, "/r", stagingRootOf codec purgeId,
          ⟨1, "now", [operation], 1, objects, freed, metadata, 0, fingerprint⟩, "now", "now", none⟩) ∧
      width sampleLib (LocalTrashPurgeJournalV4.toValue ⟨1, purgeId, .preparing, "/r", stagingRootOf codec purgeId,
        ⟨1, "now", [operation], 1, objects, freed, metadata, 0, fingerprint⟩, "now", "now", none⟩) ≤
        4000 + widthElements sampleLib (objects.map StorageObjectRefV4.toValue) := by
    intro objects fingerprint mark
    have objectDigits := digits_length freed
    have entries := digits_length metadata
    simp [four, LocalTrashPurgeJournalV4.toValue, LocalTrashPurgePlanV4.toValue, LocalTrashPurgeStatusV4.wireName,
      stagingRootOf, codec, purgeId, operation, width, widthFields, widthElements, Value.nat, writeNumber, writeString,
      escapeChar] at mark objectDigits entries ⊢
    omega
  have valid : ∀ object ∈ crowdedObjects n, validSha256 object.sha256 = true := by
    intro object member
    obtain ⟨file, listed, same⟩ := List.mem_map.mp member
    rw [← same]
    exact (crowded_names n file listed).1
  have size := crowded_objects_length n (by omega)
  have objects := objects_width (crowdedObjects n) valid
  have written : newPurge codec purgeId (planOver (crowdedObjects n) freed metadata) =
    ⟨1, purgeId, .preparing, "/r", stagingRootOf codec purgeId,
    planOver (crowdedObjects n) freed metadata, "now", "now", none⟩ := rfl
  have around := bounds (crowdedObjects n) (fingerprintOf codec [operation] [(operation, root)] (crowdedObjects n) metadata 0)
    (write_digest_length sampleLib _)
  rw [← planOver, ← written] at around
  have upper := canonical_json_length sampleLib (newPurge codec purgeId (planOver (crowdedObjects n) freed metadata)).toValue
  have lower := canonical_json_longer sampleLib (newPurge codec purgeId (planOver (crowdedObjects n) freed metadata)).toValue
  have most : maxRootBytes.toNat = 16777216 := by decide
  have text : codec.journalText (newPurge codec purgeId (planOver (crowdedObjects n) freed metadata)) =
    canonicalJson sampleLib (newPurge codec purgeId (planOver (crowdedObjects n) freed metadata)).toValue := rfl
  have small : (canonicalJson sampleLib (newPurge codec purgeId (planOver (crowdedObjects n) freed metadata)).toValue).length <
    2 ^ 64 := by omega
  rw [Readable, UInt64.le_iff_toNat_le, fileLength, UInt64.toNat_ofNat', most, text, Nat.mod_eq_of_lt small]
  omega

-- The journal of a purge is written at any length and read up to 16 MiB only: the entry
-- that was moved away stays where it is.
theorem crowded_stuck (n : Nat) (many : 300000 ≤ n) (few : n ≤ 2 ^ 20) : ∃ plan after,
    planTrashPurge codec (sampleOver (crowdedFiles n)) [operation] false = .ok plan ∧
    (purgeLocalTrash codec purgeId plan).Cut ⟨begunOver (crowdedFiles n), []⟩ ⟨after, []⟩ ∧ ¬Committed purgeId after ∧
    (recoverLocalTrashPurges codec).exec ⟨after, []⟩ = (.error "object exceeds size limit", ⟨after, []⟩) ∧
    ¬Restored codec purgeId (begunOver (crowdedFiles n)) after ∧ ¬Purged codec purgeId plan (begunOver (crowdedFiles n)) after := by
  obtain ⟨freed, metadata, planned⟩ := crowded_planned n few
  have held : (begunOver (crowdedFiles n)).trash[operation]? = some directory := by
    rw [begunOver, begun, repository, Keyed.lookup_insert, if_pos rfl]
  have listed : (planOver (crowdedObjects n) freed metadata).operationIds = [operation] := rfl
  have quiet := plan_quiet (begun_settled (crowdedFiles n)) rfl rfl [operation] planned
  rw [← listed] at quiet
  obtain ⟨after, cut, _, purges, staged⟩ :=
    purge_stages operation [] directory listed held (begun_settled _) (begun_fresh _).unstaged quiet
  have refused := crowded_unreadable n many few freed metadata
  refine ⟨_, after, planned, cut, fun committed => ?_, recovery_refused purgeId _ purges refused, fun restored => ?_,
    fun purged => ?_⟩
  · obtain ⟨journal, stored, status⟩ := committed
    rw [purges, Keyed.lookup_insert, if_pos rfl, Option.some.injEq] at stored
    subst stored
    simp [newPurge, Committing] at status
  · rw [restored.entries] at staged
    cases staged
  · rw [PurgeRepository.stagedEntry, purged.staging] at staged
    cases staged

theorem long_journal_stuck : ∃ plan after, planTrashPurge codec (sampleOver (crowdedFiles 300000)) [operation] false = .ok plan ∧
    (purgeLocalTrash codec purgeId plan).Cut ⟨begunOver (crowdedFiles 300000), []⟩ ⟨after, []⟩ ∧ ¬Committed purgeId after ∧
    (recoverLocalTrashPurges codec).exec ⟨after, []⟩ = (.error "object exceeds size limit", ⟨after, []⟩) ∧
    ¬Restored codec purgeId (begunOver (crowdedFiles 300000)) after ∧
      ¬Purged codec purgeId plan (begunOver (crowdedFiles 300000)) after :=
  crowded_stuck 300000 (by decide) (by decide)

end PurgeSample

end SessionSync.Storage
