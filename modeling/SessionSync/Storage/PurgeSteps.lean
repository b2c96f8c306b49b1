import SessionSync.Storage.PurgeSafe

set_option autoImplicit false

namespace SessionSync.Storage

open SessionSync.Core Checked Local

-- What the moves of a purge leave alone.
structure Beside (root : String) (repository after : PurgeRepository) : Prop where
  snapshots : after.snapshots = repository.snapshots
  formatMarker : after.formatMarker = repository.formatMarker
  purges : after.purges = repository.purges
  journals : after.journals = repository.journals
  staging : ∀ other, other ≠ root → after.staging[other]? = repository.staging[other]?

section Moves

variable {root : String} {repository after : PurgeRepository}

theorem staged_entry_in (staging : StagingRoot) (held : repository.staging[root]? = some staging) (operationId : String) :
    repository.stagedEntry root operationId = staging.entries.bind fun entries => entries[operationId]? := by
  rw [PurgeRepository.stagedEntry, held, Option.bind_some]

theorem staged_object_in (staging : StagingRoot) (held : repository.staging[root]? = some staging) (name : ObjectName) :
    repository.stagedObject root name = staging.objects.bind fun objects => objects[name]? := by
  rw [PurgeRepository.stagedObject, held, Option.bind_some]

theorem staging_set (staging : StagingRoot) : (repository.setStaging root staging).staging[root]? = some staging := by
  rw [PurgeRepository.setStaging, Keyed.lookup_insert, if_pos rfl]

theorem staging_set_other (staging : StagingRoot) (other : String) (apart : other ≠ root) :
    (repository.setStaging root staging).staging[other]? = repository.staging[other]? := by
  rw [PurgeRepository.setStaging, Keyed.lookup_insert, if_neg apart]

theorem staging_of_entry (operationId : String) (directory : TrashDirectory)
    (staged : repository.stagedEntry root operationId = some directory) :
    ∃ staging entries, repository.staging[root]? = some staging ∧ staging.entries = some entries ∧
      entries[operationId]? = some directory := by
  rw [PurgeRepository.stagedEntry, Option.bind_eq_some_iff] at staged
  obtain ⟨entries, there, held⟩ := staged
  obtain ⟨staging, present, own⟩ := Option.bind_eq_some_iff.mp there
  exact ⟨staging, entries, present, own, held⟩

theorem staging_of_object (name : ObjectName) (bytes : Bytes) (staged : repository.stagedObject root name = some bytes) :
    ∃ staging objects, repository.staging[root]? = some staging ∧ staging.objects = some objects ∧ objects[name]? = some bytes := by
  rw [PurgeRepository.stagedObject, Option.bind_eq_some_iff] at staged
  obtain ⟨objects, there, held⟩ := staged
  obtain ⟨staging, present, own⟩ := Option.bind_eq_some_iff.mp there
  exact ⟨staging, objects, present, own, held⟩

structure EntryStaged (root operationId : String) (repository after : PurgeRepository) :
    Prop extends Beside root repository after where
  files : after.files = repository.files
  index : after.sourceIndex = repository.sourceIndex
  held : ∃ directory, repository.trash[operationId]? = some directory
  trash : after.trash = repository.trash.erase operationId
  entries : ∀ other, after.stagedEntry root other =
    if other = operationId then repository.trash[operationId]? else repository.stagedEntry root other
  objects : ∀ name, after.stagedObject root name = repository.stagedObject root name

theorem stage_entry_spec (operationId : String) (run : stageEntry root operationId repository = .ok after) :
    EntryStaged root operationId repository after := by
  simp only [stageEntry, bind_ok, found_ok, pure_ok] at run
  obtain ⟨directory, held, staging, present, entries, own, same⟩ := run
  subst same
  refine ⟨⟨rfl, rfl, rfl, rfl, fun other apart => staging_set_other _ other apart⟩, rfl, rfl, ⟨directory, held⟩, rfl,
    fun other => ?_, fun name => ?_⟩
  · refine (staged_entry_in _ (staging_set _) other).trans ?_
    rw [staged_entry_in staging present, own, Option.bind_some, Option.bind_some, Keyed.lookup_insert, held]
  · refine (staged_object_in _ (staging_set _) name).trans ?_
    rw [staged_object_in staging present]

structure EntryReturned (root operationId : String) (repository after : PurgeRepository) :
    Prop extends Beside root repository after where
  files : after.files = repository.files
  index : after.sourceIndex = repository.sourceIndex
  trash : ∀ other, after.trash[other]? =
    if other = operationId then repository.stagedEntry root operationId else repository.trash[other]?
  entries : ∀ other, after.stagedEntry root other = if other = operationId then none else repository.stagedEntry root other
  objects : ∀ name, after.stagedObject root name = repository.stagedObject root name

theorem unstage_entry_runs (operationId : String) (staged : (repository.stagedEntry root operationId).isSome = true) :
    ∃ after, unstageEntry root operationId repository = .ok after ∧ EntryReturned root operationId repository after := by
  obtain ⟨directory, staged⟩ := Option.isSome_iff_exists.mp staged
  obtain ⟨staging, entries, present, own, held⟩ := staging_of_entry operationId directory staged
  refine ⟨{ repository.setStaging root { staging with entries := some (entries.erase operationId) } with
    trash := repository.trash.insert operationId directory }, ?_,
      ⟨rfl, rfl, rfl, rfl, fun other apart => staging_set_other _ other apart⟩,
    rfl, rfl, fun other => ?_, fun other => ?_, fun name => ?_⟩
  · simp only [unstageEntry, bind_ok, found_ok, pure_ok]
    exact ⟨staging, present, entries, own, directory, held, rfl⟩
  · rw [staged]
    exact Keyed.lookup_insert _ _ _ _
  · refine (staged_entry_in _ (staging_set _) other).trans ?_
    rw [staged_entry_in staging present, own, Option.bind_some, Option.bind_some, Keyed.lookup_erase]
  · refine (staged_object_in _ (staging_set _) name).trans ?_
    rw [staged_object_in staging present]

-- The moves of objects leave the entries of the trash alone.
structure ObjectsMoved (root : String) (repository after : PurgeRepository) : Prop extends Beside root repository after where
  index : after.sourceIndex = repository.sourceIndex
  trash : after.trash = repository.trash

theorem make_objects_runs (repository : PurgeRepository) (root : String) :
    ∃ after, makeObjects root repository = .ok after ∧ ObjectsMoved root repository after ∧
    after.files = repository.files ∧ (∀ name, after.stagedObject root name = repository.stagedObject root name) ∧
    (∀ operationId, after.stagedEntry root operationId = repository.stagedEntry root operationId) ∧
    ∃ staging objects, after.staging[root]? = some staging ∧ staging.objects = some objects := by
  have same : ∀ name, (((repository.staging[root]?.getD ⟨none, none⟩).objects.getD ∅)[name]? : Option Bytes) =
    repository.stagedObject root name := by
    intro name
    rw [PurgeRepository.stagedObject]
    cases repository.staging[root]? with
    | none => exact Std.ExtTreeMap.getElem?_empty
    | some staging =>
        obtain ⟨entries, objects⟩ := staging
        cases objects with
        | none => exact Std.ExtTreeMap.getElem?_empty
        | some objects => rfl
  refine ⟨_, rfl, ⟨⟨rfl, rfl, rfl, rfl, fun other apart => staging_set_other _ other apart⟩, rfl, rfl⟩, rfl, fun name => ?_,
    fun operationId => ?_, _, _, staging_set _, rfl⟩
  · exact (staged_object_in _ (staging_set _) name).trans (same name)
  · refine (staged_entry_in _ (staging_set _) operationId).trans ?_
    rw [PurgeRepository.stagedEntry]
    cases repository.staging[root]? <;> rfl

theorem make_entries_runs (repository : PurgeRepository) (root : String) :
    ∃ after, makeEntries root repository = .ok after ∧ ObjectsMoved root repository after ∧
    after.files = repository.files ∧ (∀ name, after.stagedObject root name = repository.stagedObject root name) ∧
    ∀ operationId, after.stagedEntry root operationId = repository.stagedEntry root operationId := by
  refine ⟨_, rfl, ⟨⟨rfl, rfl, rfl, rfl, fun other apart => staging_set_other _ other apart⟩, rfl, rfl⟩, rfl, fun name => ?_,
    fun operationId => ?_⟩
  · refine (staged_object_in _ (staging_set _) name).trans ?_
    rw [PurgeRepository.stagedObject]
    cases repository.staging[root]? <;> rfl
  · refine (staged_entry_in _ (staging_set _) operationId).trans ?_
    rw [PurgeRepository.stagedEntry]
    cases repository.staging[root]? with
    | none => exact Std.ExtTreeMap.getElem?_empty
    | some staging =>
        obtain ⟨entries, objects⟩ := staging
        cases entries with
        | none => exact Std.ExtTreeMap.getElem?_empty
        | some entries => rfl

theorem stage_object_runs (name : ObjectName) (held : repository.files[name]?.isSome = true) (staging : StagingRoot)
    (objects : Std.ExtTreeMap ObjectName Bytes) (present : repository.staging[root]? = some staging)
    (own : staging.objects = some objects) :
    ∃ after, stageObject root name repository = .ok after ∧ ObjectsMoved root repository after ∧
      after.files = repository.files.erase name ∧
      ∀ other, after.stagedObject root other =
        if other = name then repository.files[name]? else repository.stagedObject root other := by
  obtain ⟨bytes, held⟩ := Option.isSome_iff_exists.mp held
  refine ⟨{ repository.setStaging root { staging with objects := some (objects.insert name bytes) } with
    files := repository.files.erase name }, ?_,
    ⟨⟨rfl, rfl, rfl, rfl, fun other apart => staging_set_other _ other apart⟩, rfl, rfl⟩, rfl, fun other => ?_⟩
  · simp only [stageObject, bind_ok, found_ok, pure_ok]
    exact ⟨bytes, held, staging, present, objects, own, rfl⟩
  · refine (staged_object_in _ (staging_set _) other).trans ?_
    rw [staged_object_in staging present, own, Option.bind_some, Option.bind_some, Keyed.lookup_insert, held]

theorem discard_object_runs (name : ObjectName) (bytes : Bytes) (staged : repository.stagedObject root name = some bytes) :
    ∃ after, discardObject root name repository = .ok after ∧ ObjectsMoved root repository after ∧ after.files = repository.files ∧
      ∀ other, after.stagedObject root other = if other = name then none else repository.stagedObject root other := by
  obtain ⟨staging, objects, present, own, held⟩ := staging_of_object name bytes staged
  refine ⟨repository.setStaging root { staging with objects := some (objects.erase name) }, ?_,
    ⟨⟨rfl, rfl, rfl, rfl, fun other apart => staging_set_other _ other apart⟩, rfl, rfl⟩, rfl, fun other => ?_⟩
  · simp only [discardObject, bind_ok, found_ok, pure_ok]
    exact ⟨staging, present, objects, own, rfl⟩
  · refine (staged_object_in _ (staging_set _) other).trans ?_
    rw [staged_object_in staging present, own, Option.bind_some, Option.bind_some, Keyed.lookup_erase]

end Moves

end SessionSync.Storage
