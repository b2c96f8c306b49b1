import SessionSync.Storage.PurgePhases

set_option autoImplicit false

namespace SessionSync.Storage

open SessionSync.Core Checked Local

-- The removal is under way.
structure Sweeping (codec : PurgeCodec) (start : PurgeRepository) (operation : String) (plan : LocalTrashPurgePlanV4)
    (repository : PurgeRepository) :
    Prop extends Swept codec start operation plan repository where
  journal : ∃ journal, repository.purges[operation]? = some journal ∧ Committing journal.status

-- What the steps of the removal rest on.
structure Removes (codec : PurgeCodec) (start : PurgeRepository) (plan : LocalTrashPurgePlanV4)
    (reached all : List StorageObjectRefV4) : Prop where
  planned : PlannedFrom codec start.toMarkedRepository plan reached all
  canonical : CanonicalManifests codec.toMarkCodec start.files

section Sweep

variable {codec : PurgeCodec} {start : PurgeRepository} {operation : String} {plan : LocalTrashPurgePlanV4}
    {repository after : PurgeRepository}
  {reached all : List StorageObjectRefV4}

theorem sweeping_closed (sweeping : Sweeping codec start operation plan repository) :
    Closed codec start operation plan repository := by
  obtain ⟨journal, stored, status⟩ := sweeping.journal
  exact ⟨sweeping.toSwept, journal, stored, .inl status⟩

theorem sweeping_moved (sweeping : Sweeping codec start operation plan repository)
    (moved : ObjectsMoved (stagingRootOf codec operation) repository after)
    (files : ∀ name, after.files[name]? = start.files[name]? ∨ name ∈ PurgedNames plan ∧ after.files[name]? = none)
    (staged : ∀ name bytes, after.stagedObject (stagingRootOf codec operation) name = some bytes → start.files[name]? = some bytes) :
    Sweeping codec start operation plan after where
  toPurgeFrame := frame_beside sweeping.toPurgeFrame moved.toBeside
  trash := moved.trash.trans sweeping.trash
  files := files
  staged := staged
  index := moved.index.symm ▸ sweeping.index
  journal := moved.purges.symm ▸ sweeping.journal

-- What is left is what the plan spares, and some of what it names.
theorem swept_files (swept : Swept codec start operation plan repository) :
    ∃ gone, (∀ name ∈ gone, name ∈ PurgedNames plan) ∧ repository.files = without start.files gone := by
  refine ⟨(PurgedNames plan).filter fun name => repository.files[name]?.isNone, fun name member => (List.mem_filter.mp member).1, ?_⟩
  refine Std.ExtTreeMap.ext_getElem? fun name => ?_
  rw [lookup_without]
  by_cases lost : name ∈ (PurgedNames plan).filter fun name => repository.files[name]?.isNone
  · rw [if_pos lost]
    exact Option.isNone_iff_eq_none.mp (List.mem_filter.mp lost).2
  · rw [if_neg lost]
    rcases swept.files name with same | ⟨among, gone⟩
    · exact same
    · exact absurd (List.mem_filter.mpr ⟨among, by rw [gone]; rfl⟩) lost

theorem swept_marks (removes : Removes codec start plan reached all) (swept : Swept codec start operation plan repository) :
    collectReachableObjects codec.toMarkCodec repository.toMarkedRepository [] = .ok reached := by
  obtain ⟨gone, among, files⟩ := swept_files swept
  have same : repository.toMarkedRepository =
    ⟨without start.files gone, start.snapshots, purgedTrash start.toMarkedRepository plan⟩ := by
    rw [← files, ← swept.snapshots, ← swept.trash]
  rw [same]
  exact swept_reachable removes.planned.marked removes.canonical plan.candidateObjects
    (candidates_unreached removes.planned) gone among

theorem candidate_stored (removes : Removes codec start plan reached all) (object : StorageObjectRefV4)
    (member : object ∈ plan.candidateObjects) :
    ∃ bytes, start.files[object.name]? = some bytes ∧ fileLength bytes = object.byteLength ∧ validSha256 object.sha256 = true ∧
      object ∉ reached := by
  obtain ⟨⟨bytes, held, same⟩, unreached⟩ := candidates_unreached removes.planned object member
  rw [removes.planned.candidates, List.mem_filter] at member
  refine ⟨bytes, held, by rw [← same]; rfl, ?_, unreached⟩
  obtain ⟨file, _, one⟩ := map_each_mem _ _ _ removes.planned.enumerated object member.1
  simp only [enumerateOne, validateSha256V4, bind_ok, ensure_ok, pure_ok] at one
  obtain ⟨_, valid, rfl⟩ := one
  exact valid

-- What one round of the removal leaves behind.
structure ObjectGone (codec : PurgeCodec) (start : PurgeRepository) (operation : String) (plan : LocalTrashPurgePlanV4)
    (object : StorageObjectRefV4) (repository : PurgeRepository) (counted final : Nat × UInt64) (after : PurgeRepository) :
    Prop extends Sweeping codec start operation plan after where
  gone : after.files[object.name]? = none
  fewer : ∀ name : ObjectName, repository.files[name]? = none → after.files[name]? = none
  counts : final.2.toNat ≤ counted.2.toNat + object.byteLength.toNat

theorem discard_staged_comes (sweeping : Sweeping codec start operation plan repository) (object : StorageObjectRefV4) (bytes : Bytes)
    (held : start.files[object.name]? = some bytes) (length : fileLength bytes = object.byteLength)
    (gone : repository.files[object.name]? = none) (counted : Nat × UInt64)
    (small : counted.2.toNat + object.byteLength.toNat < 2 ^ 64) (faults : List Bool) :
    SafeAccess (Closed codec start operation plan) (discardStaged (stagingRootOf codec operation) object counted)
      (comesTo faults (ObjectGone codec start operation plan object repository counted) False) ⟨repository, faults⟩ := by
  have here := sweeping_closed sweeping
  apply safe_probe _ _ _ _ here
  apply safe_if
  · intro staged
    obtain ⟨other, staged⟩ := Option.isSome_iff_exists.mp staged
    have same : other = bytes := by
      have was := sweeping.staged object.name other staged
      rw [held, Option.some.injEq] at was
      exact was.symm
    subst same
    obtain ⟨after, ran, moved, files, objects⟩ := discard_object_runs object.name other staged
    have swept : Sweeping codec start operation plan after := by
      refine sweeping_moved sweeping moved (fun name => files ▸ sweeping.files name) fun name bytes inside => ?_
      rw [objects] at inside
      by_cases own : name = object.name
      · rw [if_pos own] at inside
        cases inside
      · rw [if_neg own] at inside
        exact sweeping.staged name bytes inside
    have there := sweeping_closed swept
    apply comes_reads _ _ _ _ _ here object.byteLength (by rw [staged, ← length]; rfl)
    intro rest
    apply comes_runs_on _ _ _ _ _ here ran there
    intro rest
    apply comes_passes _ _ small _ _ _ _ there
    refine comes_done _ _ _ _ rest there ⟨swept, files ▸ gone, fun name lost => files ▸ lost, ?_⟩
    rw [UInt64.toNat_add, Nat.mod_eq_of_lt small]
  · exact fun _ => comes_done _ _ _ repository faults here ⟨sweeping, gone, fun name => id, Nat.le_add_right _ _⟩

theorem remove_object_comes (removes : Removes codec start plan reached all)
    (sweeping : Sweeping codec start operation plan repository) (object : StorageObjectRefV4)
    (member : object ∈ plan.candidateObjects) (counted : Nat × UInt64) (small : counted.2.toNat + object.byteLength.toNat < 2 ^ 64)
    (faults : List Bool) :
    SafeAccess (Closed codec start operation plan) (removeObject (stagingRootOf codec operation) reached object counted)
      (comesTo faults (ObjectGone codec start operation plan object repository counted) False) ⟨repository, faults⟩ := by
  have here := sweeping_closed sweeping
  obtain ⟨bytes, held, length, valid, unreached⟩ := candidate_stored removes object member
  apply comes_passes _ _ valid _ _ _ _ here
  apply safe_probe _ _ _ _ here
  apply safe_if
  · intro source
    have whole : repository.files[object.name]? = some bytes := by
      rcases sweeping.files object.name with same | ⟨_, gone⟩
      · exact same.trans held
      · rw [gone] at source
        cases source
    apply comes_reads _ _ _ _ _ here object.byteLength (by rw [whole, ← length]; rfl)
    intro rest
    apply comes_passes _ _ rfl _ _ _ _ here
    apply safe_if
    · exact fun inside => absurd inside unreached
    intro _
    obtain ⟨made, ran, moved, files, objects, _, staging, inner, present, own⟩ :=
      make_objects_runs repository (stagingRootOf codec operation)
    have ready : Sweeping codec start operation plan made :=
      sweeping_moved sweeping moved (fun name => files ▸ sweeping.files name) fun name bytes inside =>
        sweeping.staged name bytes (objects name ▸ inside)
    apply comes_runs_on _ _ _ _ _ here ran (sweeping_closed ready)
    intro rest
    obtain ⟨after, ran, moved, less, objects⟩ := stage_object_runs object.name (by rw [files, whole]; rfl) staging inner present own
    have gone : after.files[object.name]? = none := by
      rw [less, Keyed.lookup_erase, if_pos rfl]
    have swept : Sweeping codec start operation plan after := by
      refine sweeping_moved ready moved (fun name => ?_) fun name bytes inside => ?_
      · by_cases same : name = object.name
        · exact .inr ⟨same ▸ List.mem_map_of_mem member, same ▸ gone⟩
        · rw [less, Keyed.lookup_erase, if_neg same]
          exact ready.files name
      · rw [objects] at inside
        by_cases same : name = object.name
        · rw [if_pos same, files, whole] at inside
          rw [same, held, inside]
        · rw [if_neg same] at inside
          exact ready.staged name bytes inside
    apply comes_runs_on _ _ _ _ _ (sweeping_closed ready) ran (sweeping_closed swept)
    intro rest
    refine comes_mono _ _ _ _ _ _ _ (fun final reached _ ends =>
      ⟨ends.toSweeping, ends.gone, fun name lost => ends.fewer name ?_, ends.counts⟩) id
      (discard_staged_comes swept object bytes held length gone counted small rest)
    rw [less, Keyed.lookup_erase, files, lost, ite_self]
  · intro absent
    exact discard_staged_comes sweeping object bytes held length (Option.not_isSome_iff_eq_none.mp absent) counted small faults

def bytesOf (objects : List StorageObjectRefV4) : Nat := (objects.map fun object => object.byteLength.toNat).sum

theorem remove_objects_comes (removes : Removes codec start plan reached all) (objects : List StorageObjectRefV4)
    (inside : ∀ object ∈ objects, object ∈ plan.candidateObjects) (sweeping : Sweeping codec start operation plan repository)
    (counted : Nat × UInt64) (small : counted.2.toNat + bytesOf objects < 2 ^ 64) (faults : List Bool) :
    SafeAccess (Closed codec start operation plan) (removeObjects (stagingRootOf codec operation) reached objects counted)
      (comesTo faults (fun _ after => Sweeping codec start operation plan after ∧
        (∀ object ∈ objects, after.files[object.name]? = none) ∧
        ∀ name : ObjectName, repository.files[name]? = none → after.files[name]? = none) False) ⟨repository, faults⟩ := by
  induction objects generalizing repository counted faults with
  | nil => exact comes_done _ _ _ repository faults (sweeping_closed sweeping) ⟨sweeping, List.forall_mem_nil _, fun _ => id⟩
  | cons object rest ih =>
      obtain ⟨first, others⟩ := List.forall_mem_cons.mp inside
      rw [bytesOf, List.map_cons, List.sum_cons] at small
      apply comes_then _ _ _ _ _ _ _ (remove_object_comes removes sweeping object first counted (by omega) faults)
      intro final state faults _ gone
      have counts := gone.counts
      refine comes_mono _ _ _ _ _ _ _ (fun _ after _ ends => ⟨ends.1, List.forall_mem_cons.mpr ⟨ends.2.2 _ gone.gone, ends.2.1⟩,
        fun name lost => ends.2.2 name (gone.fewer name lost)⟩) id (ih others gone.toSweeping final (by rw [bytesOf]; omega) faults)

theorem sweeping_dropped (sweeping : Sweeping codec start operation plan repository)
    (moved : ObjectsMoved (stagingRootOf codec operation) repository after) (files : after.files = repository.files)
    (objects : ∀ name, after.stagedObject (stagingRootOf codec operation) name = none ∨
      after.stagedObject (stagingRootOf codec operation) name = repository.stagedObject (stagingRootOf codec operation) name) :
    Sweeping codec start operation plan after := by
  refine sweeping_moved sweeping moved (fun name => files ▸ sweeping.files name) fun name bytes inside => ?_
  rcases objects name with none_ | same
  · rw [none_] at inside
    cases inside
  · exact sweeping.staged name bytes (same ▸ inside)

theorem set_moved (staging : StagingRoot) :
    ObjectsMoved (stagingRootOf codec operation) repository (repository.setStaging (stagingRootOf codec operation) staging) :=
  ⟨⟨rfl, rfl, rfl, rfl, fun other apart => staging_set_other _ other apart⟩, rfl, rfl⟩

theorem present_staging {α : Type} (part : StagingRoot → Option α)
    (held : (repository.staging[stagingRootOf codec operation]?.bind part).isSome = true) :
    ∃ staging, repository.staging[stagingRootOf codec operation]? = some staging := by
  obtain ⟨inner, there⟩ := Option.isSome_iff_exists.mp held
  obtain ⟨staging, present, _⟩ := Option.bind_eq_some_iff.mp there
  exact ⟨staging, present⟩

theorem clear_staging_comes (sweeping : Sweeping codec start operation plan repository)
    (empty : ∀ name ∈ PurgedNames plan, repository.files[name]? = none) (faults : List Bool) :
    SafeAccess (Closed codec start operation plan) (clearStaging (stagingRootOf codec operation))
      (comesTo faults (fun _ after => Sweeping codec start operation plan after ∧
        (∀ name ∈ PurgedNames plan, after.files[name]? = none) ∧
        after.staging[stagingRootOf codec operation]? = none) False) ⟨repository, faults⟩ := by
  have here := sweeping_closed sweeping
  apply comes_then _ _ (fun _ after => Sweeping codec start operation plan after ∧
    (∀ name ∈ PurgedNames plan, after.files[name]? = none) ∧
    after.staging[stagingRootOf codec operation]?.bind StagingRoot.entries = none)
  · refine remove_existing_comes _ _ _ _ _ here (fun held => ?_) fun absent => 
      ⟨sweeping, empty, Option.isNone_iff_eq_none.mp (Option.isSome_eq_false_iff.mp absent)⟩
    · obtain ⟨staging, present⟩ := present_staging _ held
      have swept : Sweeping codec start operation plan (repository.setStaging (stagingRootOf codec operation)
        { staging with entries := none }) := by
        refine sweeping_dropped sweeping (set_moved _) rfl fun name => .inr ?_
        rw [staged_object_in _ (staging_set _), staged_object_in staging present]
      refine ⟨_, by rw [dropEntries, present]; rfl, sweeping_closed swept, swept, empty, ?_⟩
      rw [staging_set]
      rfl
  intro _ state rest there left
  apply comes_then _ _ (fun _ after => Sweeping codec start operation plan after ∧
    (∀ name ∈ PurgedNames plan, after.files[name]? = none) ∧
    after.staging[stagingRootOf codec operation]?.bind StagingRoot.entries = none ∧
    after.staging[stagingRootOf codec operation]?.bind StagingRoot.objects = none)
  · refine remove_existing_comes _ _ _ _ _ there (fun held => ?_) fun absent =>
      ⟨left.1, left.2.1, left.2.2, Option.isNone_iff_eq_none.mp (Option.isSome_eq_false_iff.mp absent)⟩
    obtain ⟨staging, present⟩ := present_staging _ held
    have swept : Sweeping codec start operation plan (state.setStaging (stagingRootOf codec operation)
      { staging with objects := none }) := by
      refine sweeping_dropped left.1 (set_moved _) rfl fun name => .inl ?_
      rw [staged_object_in _ (staging_set _)]
      rfl
    have entries := left.2.2
    rw [present] at entries
    refine ⟨_, by rw [dropObjects, present]; rfl, sweeping_closed swept, swept, left.2.1, ?_, ?_⟩
    · rw [staging_set]
      exact entries
    · rw [staging_set]
      rfl
  intro _ last rest there left
  obtain ⟨sweeps, gone, noEntries, noObjects⟩ := left
  refine remove_existing_comes _ _ _ _ _ there (fun held => ?_) fun absent =>
    ⟨sweeps, gone, Option.isNone_iff_eq_none.mp (Option.isSome_eq_false_iff.mp absent)⟩
  obtain ⟨staging, present⟩ := Option.isSome_iff_exists.mp held
  rw [present, Option.bind_some] at noEntries noObjects
  have cleared : (removeAllStaging (stagingRootOf codec operation) last).staging[stagingRootOf codec operation]? = none := by
    rw [removeAllStaging, Keyed.lookup_erase, if_pos rfl]
  have swept : Sweeping codec start operation plan (removeAllStaging (stagingRootOf codec operation) last) := by
    refine sweeping_dropped sweeps ⟨⟨rfl, rfl, rfl, rfl, fun other apart => ?_⟩, rfl, rfl⟩ rfl fun name => .inl ?_
    · rw [removeAllStaging, Keyed.lookup_erase, if_neg apart]
    · rw [PurgeRepository.stagedObject, cleared]
      rfl
  refine ⟨removeAllStaging (stagingRootOf codec operation) last, ?_, sweeping_closed swept, swept, gone, cleared⟩
  simp only [removeStaging, bind_ok, found_ok, ensure_ok, pure_ok]
  exact ⟨staging, present, (), ⟨by rw [noEntries]; rfl, by rw [noObjects]; rfl⟩, rfl⟩

theorem sweeping_journal (swept : Swept codec start operation plan repository) (journal : LocalTrashPurgeJournalV4)
    (own : OwnPurge codec operation plan journal) (status : Committing journal.status) :
    Sweeping codec start operation plan (repository.setPurge operation journal) :=
  ⟨⟨frame_journal swept.toPurgeFrame journal own, swept.trash, swept.files, swept.staged, swept.index⟩, journal,
    stored_purge journal, status⟩

theorem invalidate_comes (sweeping : Sweeping codec start operation plan repository)
    (empty : ∀ name ∈ PurgedNames plan, repository.files[name]? = none)
    (cleared : repository.staging[stagingRootOf codec operation]? = none) (faults : List Bool) :
    SafeAccess (Closed codec start operation plan) invalidateSourceObjectIndex
      (comesTo faults (fun _ after => Sweeping codec start operation plan after ∧
        Emptied codec operation plan after) False) ⟨repository, faults⟩ := by
  have here := sweeping_closed sweeping
  apply safe_probe _ _ _ _ here
  apply safe_if
  · intro _
    have swept : Sweeping codec start operation plan { repository with sourceIndex := none } :=
      ⟨⟨⟨sweeping.snapshots, sweeping.formatMarker, sweeping.journals, sweeping.others, sweeping.own, sweeping.staging⟩,
        sweeping.trash, sweeping.files, sweeping.staged, .inr rfl⟩, sweeping.journal⟩
    exact comes_runs _ _ _ _ here rfl (sweeping_closed swept) ⟨swept, empty, cleared, rfl⟩
  · intro absent
    exact comes_done () _ _ repository faults here ⟨sweeping, empty, cleared, Option.not_isSome_iff_eq_none.mp absent⟩

end Sweep

section Finish

variable {codec : PurgeCodec} {start : PurgeRepository} {operation : String} {plan : LocalTrashPurgePlanV4}
    {repository : PurgeRepository}
  {reached all : List StorageObjectRefV4}

-- The end of a purge: the entries are gone, and of the objects exactly the candidates.
structure Finished (codec : PurgeCodec) (start : PurgeRepository) (operation : String) (plan : LocalTrashPurgePlanV4)
    (repository : PurgeRepository) :
    Prop extends Swept codec start operation plan repository, Emptied codec operation plan repository where
  journal : ∃ journal, repository.purges[operation]? = some journal ∧ journal.status = .completed

theorem finished_closed (finished : Finished codec start operation plan repository) :
    Closed codec start operation plan repository := by
  obtain ⟨journal, stored, status⟩ := finished.journal
  exact ⟨finished.toSwept, journal, stored, .inr ⟨status, finished.toEmptied⟩⟩

theorem finished_journal (swept : Swept codec start operation plan repository) (emptied : Emptied codec operation plan repository)
    (journal : LocalTrashPurgeJournalV4) (own : OwnPurge codec operation plan journal) (status : journal.status = .completed) :
    Finished codec start operation plan (repository.setPurge operation journal) :=
  ⟨⟨frame_journal swept.toPurgeFrame journal own, swept.trash, swept.files, swept.staged, swept.index⟩,
    ⟨emptied.gone, emptied.cleared, emptied.unindexed⟩, journal, stored_purge journal, status⟩

def tagged {α : Type} (faults : List Bool) (tag : LocalTrashPurgeStatusV4) (good : α → PurgeRepository → Prop) :
    Except (LocalTrashPurgeStatusV4 × String) α → Faulty PurgeRepository → Prop
  | .ok value, seen => good value seen.state ∧ (faults = [] → seen.faults = [])
  | .error failed, _ => failed.1 = tag ∧ faults ≠ []

theorem comes_tagged {crash : PurgeRepository → Prop} {α : Type} (faults : List Bool) (tag : LocalTrashPurgeStatusV4)
    (good : α → PurgeRepository → Prop) (prog : PurgeAccess α) (device : Faulty PurgeRepository)
    (safe : SafeAccess crash prog (comesTo faults good False) device) :
    SafeAccess crash (Prog.mapError (tag, ·) prog) (tagged faults tag good) device := by
  apply Prog.safe_map_error
  refine Prog.safe_mono _ _ _ _ (fun outcome seen _ comes => ?_) safe
  cases outcome with
  | error error => exact ⟨rfl, fun none_ => comes none_⟩
  | ok value => exact comes

theorem complete_safe (sweeping : Sweeping codec start operation plan repository) (emptied : Emptied codec operation plan repository)
    (journal : LocalTrashPurgeJournalV4) (ended : Finished codec start operation plan (repository.setPurge operation journal))
    (faults : List Bool) :
    SafeAccess (Closed codec start operation plan)
      (Prog.mapError (LocalTrashPurgeStatusV4.completed, ·) (writePurgeJournal operation journal))
      (fun outcome seen => tagged faults .completed (fun _ after => Finished codec start operation plan after) outcome seen ∧
        Emptied codec operation plan seen.state) ⟨repository, faults⟩ := by
  let both := fun state => Closed codec start operation plan state ∧ Emptied codec operation plan state
  have written : SafeAccess both (writePurgeJournal operation journal)
      (comesTo faults (fun _ after => Finished codec start operation plan after) False) ⟨repository, faults⟩ :=
    write_purge_comes journal _ _ faults ⟨sweeping_closed sweeping, emptied⟩ ⟨finished_closed ended, ended.toEmptied⟩ ended
  have strong := comes_tagged faults .completed _ _ _ written
  exact safe_weaken both _ (fun _ here => here.1) _ _ _ (Prog.safe_mono _ _ _ _ (fun outcome seen here tag => ⟨tag, here.2⟩) strong)

-- How the end of a purge comes out, with what its journal has in memory by then.
def finishes (codec : PurgeCodec) (start : PurgeRepository) (operation : String) (plan : LocalTrashPurgePlanV4) (faults : List Bool) :
    Except (LocalTrashPurgeStatusV4 × String) (Nat × UInt64) → Faulty PurgeRepository → Prop
  | .ok _, seen => Finished codec start operation plan seen.state ∧ (faults = [] → seen.faults = [])
  | .error failed, seen => (Committing failed.1 ∨ failed.1 = .completed ∧ Emptied codec operation plan seen.state) ∧ faults ≠ []

theorem finishes_later (faults rest : List Bool) (quiet : faults = [] → rest = [])
    (outcome : Except (LocalTrashPurgeStatusV4 × String) (Nat × UInt64)) (seen : Faulty PurgeRepository)
    (ends : finishes codec start operation plan rest outcome seen) :
    finishes codec start operation plan faults outcome seen := by
  cases outcome with
  | error failed => exact ⟨ends.1, fun none_ => ends.2 (quiet none_)⟩
  | ok value => exact ⟨ends.1, fun none_ => ends.2 (quiet none_)⟩

theorem finish_safe (removes : Removes codec start plan reached all) (journal : LocalTrashPurgeJournalV4)
    (own : OwnPurge codec operation plan journal) (status : Committing journal.status)
    (sweeping : Sweeping codec start operation plan repository) (faults : List Bool) :
    SafeAccess (Closed codec start operation plan) (finishLocalTrashPurge codec operation journal)
      (finishes codec start operation plan faults)
      ⟨repository, faults⟩ := by
  have staged := own_next journal own .objectsStaged
  have completed := own_status journal own .completed none
  obtain ⟨first, error, same⟩ := own
  subst same
  apply safe_then _ _ (tagged faults first fun _ after => Sweeping codec start operation plan after ∧ ∀ name ∈ PurgedNames plan,
    after.files[name]? = none)
  · apply comes_tagged
    apply comes_reads _ _ _ _ _ (sweeping_closed sweeping) reached (swept_marks removes sweeping.toSwept)
    intro rest
    refine comes_mono _ _ _ _ _ _ _ (fun _ after _ ends => ⟨ends.1, fun name member => ?_⟩) id
      (remove_objects_comes removes plan.candidateObjects (fun _ => id) sweeping (0, 0)
        (by simpa [bytesOf] using removes.planned.bounded) rest)
    obtain ⟨object, listed, same⟩ := List.mem_map.mp member
    exact same ▸ ends.2.1 object listed
  · intro counted seen _ removed
    obtain ⟨⟨swept, empty⟩, calm⟩ := removed
    obtain ⟨state, rest⟩ := seen
    refine Prog.safe_mono _ (finishes codec start operation plan rest) _ _
      (fun outcome last _ => finishes_later faults rest calm outcome last) ?_
    apply safe_then _ _ (tagged rest .objectsStaged fun _ after => Sweeping codec start operation plan after ∧
      Emptied codec operation plan after)
    · apply comes_tagged
      have next := sweeping_journal swept.toSwept _ staged (.inr rfl)
      apply comes_then _ _ (fun _ after => Sweeping codec start operation plan after ∧ ∀ name ∈ PurgedNames plan,
        after.files[name]? = none)
      · exact write_purge_comes _ _ _ rest (sweeping_closed swept) (sweeping_closed next) ⟨next, empty⟩
      intro _ state faults _ left
      apply comes_then _ _ _ _ _ _ _ (clear_staging_comes left.1 left.2 faults)
      exact fun _ state faults _ left => invalidate_comes left.1 left.2.1 left.2.2 faults
    · intro _ seen _ cleared
      obtain ⟨⟨swept, emptied⟩, calm⟩ := cleared
      obtain ⟨state, later⟩ := seen
      refine Prog.safe_mono _ (finishes codec start operation plan later) _ _
        (fun outcome last _ => finishes_later rest later calm outcome last) ?_
      have ended := finished_journal swept.toSwept emptied _ completed rfl
      apply safe_then _ _ (fun outcome seen =>
        (tagged later .completed fun _ after => Finished codec start operation plan after) outcome seen ∧
        Emptied codec operation plan seen.state)
      · exact complete_safe swept emptied _ ended later
      · exact fun _ seen here done => safe_done _ _ _ here done.1
      · exact fun failed seen _ gone => ⟨.inr ⟨gone.1.1, gone.2⟩, gone.1.2⟩
    · exact fun failed seen _ gone => ⟨.inl (gone.1 ▸ .inr rfl), gone.2⟩
  · exact fun failed seen _ gone => ⟨.inl (gone.1 ▸ status), gone.2⟩

end Finish

end SessionSync.Storage
