import SessionSync.Import.Undisturbed

set_option autoImplicit false

namespace SessionSync.Import

open SessionSync.Core Checked Local Storage Checkout Rollout

variable {δ : Type} (env : ImportEnv δ)

-- Uuid::now_v7 draws names that nothing has yet.
structure FreshNames (start : Disk δ) (prepared : List PreparedThread) : Prop where
  temporary : ∀ thread ∈ prepared, rolloutAt thread.temporaryPath start = none
  copy : ∀ thread ∈ prepared, rolloutAt thread.copyPath start = none
  apart : ∀ thread ∈ prepared, ∀ other ∈ prepared, thread.temporaryPath ≠ other.targetPath ∧ thread.copyPath ≠ other.targetPath ∧
    thread.copyPath ≠ other.temporaryPath

-- Where an import is to put its rollouts there is nothing, and no two share a place.
structure Vacant (start : Disk δ) (prepared : List PreparedThread) : Prop where
  absent : ∀ thread ∈ prepared, rolloutAt thread.targetPath start = none
  nodup : (prepared.map PreparedThread.targetPath).Nodup

def Own (prepared : List PreparedThread) (path : RolloutPath) : Prop :=
  ∃ thread ∈ prepared, path = thread.targetPath ∨ path = thread.temporaryPath ∨ path = thread.copyPath

-- What an import has changed so far is its own.
structure Installing (start : Disk δ) (prepared : List PreparedThread) (target : String) (disk : Disk δ) : Prop where
  outside : ∀ path, ¬ Own prepared path → rolloutAt path disk = rolloutAt path start
  databases : ∀ path : String, path ≠ target → disk.databases[path]? = start.databases[path]?

-- What the rollback takes for the import's: a rollout that has the recorded hash. The
-- copies that a store writes first it never looks for.
structure Recognised (lib : Primitives) (prepared : List PreparedThread) (disk : Disk δ) : Prop where
  hashed : ∀ thread ∈ prepared, ∀ bytes, rolloutAt thread.targetPath disk = some bytes →
    digestBytes lib bytes = thread.bundle.rollout.sha256
  copies : ∀ thread ∈ prepared, rolloutAt thread.copyPath disk = none

theorem planned_forall {holds : JournalRollout → Prop} (prepared : List PreparedThread) :
    (∀ rollout ∈ prepared.map PreparedThread.planned, holds rollout) ↔ ∀ thread ∈ prepared, holds thread.planned :=
  List.forall_mem_map

section Restored

variable {start : Disk δ} {prepared : List PreparedThread}

theorem own_absent (vacant : Vacant start prepared) (fresh : FreshNames start prepared) (path : RolloutPath)
    (own : Own prepared path) :
    rolloutAt path start = none := by
  obtain ⟨thread, member, target | temporary | copied⟩ := own
  · exact target ▸ vacant.absent thread member
  · exact temporary ▸ fresh.temporary thread member
  · exact copied ▸ fresh.copy thread member

theorem outside_spared (path : RolloutPath) (bytes : Bytes) (outside : ¬ Own prepared path) :
    ∀ thread ∈ prepared, Spared env.lib thread.planned path bytes := by
  intro thread member
  constructor
  · intro same
    exact outside ⟨thread, member, .inr (.inl same)⟩
  · intro same
    exact absurd ⟨thread, member, .inl same⟩ outside

theorem copy_spared (fresh : FreshNames start prepared) (thread : PreparedThread) (member : thread ∈ prepared) (bytes : Bytes) :
    ∀ other ∈ prepared, Spared env.lib other.planned thread.copyPath bytes := by
  intro other inside
  obtain ⟨_, target, temporary⟩ := fresh.apart thread member other inside
  exact ⟨temporary, fun same => absurd same target⟩

theorem target_spared (vacant : Vacant start prepared) (fresh : FreshNames start prepared) (thread : PreparedThread)
    (member : thread ∈ prepared) (bytes : Bytes) (differs : digestBytes env.lib bytes ≠ thread.bundle.rollout.sha256) :
    ∀ other ∈ prepared, Spared env.lib other.planned thread.targetPath bytes := by
  intro other inside
  refine ⟨fun same => (fresh.apart other inside thread member).1 same.symm, fun same => ?_⟩
  have one : thread = other := List.inj_on_of_nodup_map vacant.nodup member inside same
  exact one ▸ differs

-- An undisturbed rollback leaves the home as it was exactly when it can tell every
-- file of the import.
theorem restored_iff (target : String) (database : δ) (disk : Disk δ) (vacant : Vacant start prepared)
    (fresh : FreshNames start prepared) (installing : Installing start prepared target disk)
    (copy : start.databases[target]? = some database) :
    SameHome start (restored env (prepared.map PreparedThread.planned) target database disk) ↔ Recognised env.lib prepared disk := by
  obtain ⟨fewer, temporary, targets, spared⟩ := cleared env.lib (prepared.map PreparedThread.planned) disk
  rw [planned_forall] at temporary targets
  have kept : ∀ path bytes, rolloutAt path disk = some bytes → (∀ thread ∈ prepared, Spared env.lib thread.planned path bytes) →
      rolloutAt path (restored env (prepared.map PreparedThread.planned) target database disk) = some bytes :=
    fun path bytes there each => spared path bytes there ((planned_forall prepared).mpr each)
  constructor
  · intro same
    constructor
    · intro thread member bytes there
      by_contra differs
      have left := kept _ bytes there (target_spared env vacant fresh thread member bytes differs)
      rw [same.rollouts, vacant.absent thread member] at left
      cases left
    · intro thread member
      cases there : rolloutAt thread.copyPath disk with
      | none => rfl
      | some bytes =>
          have left := kept _ bytes there (copy_spared env fresh thread member bytes)
          rw [same.rollouts, fresh.copy thread member] at left
          cases left
  · intro recognised
    constructor
    · intro path
      by_cases own : Own prepared path
      · rw [own_absent vacant fresh path own]
        obtain ⟨thread, member, isTarget | isTemporary | isCopy⟩ := own
        · subst isTarget
          cases left : rolloutAt thread.targetPath (clearRollouts env.lib (prepared.map PreparedThread.planned) disk) with
          | none => exact left
          | some bytes =>
              have there : rolloutAt thread.targetPath disk = some bytes := by
                rcases fewer thread.targetPath with same | gone
                · rw [← same, left]
                · rw [gone] at left
                  cases left
              exact absurd (recognised.hashed thread member bytes there) (targets thread member bytes left)
        · exact isTemporary ▸ temporary thread member
        · rw [isCopy]
          rcases fewer thread.copyPath with same | gone
          · exact same.trans (recognised.copies thread member)
          · exact gone
      · rw [← installing.outside path own]
        cases there : rolloutAt path disk with
        | some bytes => exact kept path bytes there (outside_spared env path bytes own)
        | none =>
            rcases fewer path with same | gone
            · exact same.trans there
            · exact gone
    · intro path
      change (((clearRollouts env.lib (prepared.map PreparedThread.planned) disk).databases.insert target database)[path]?) = _
      rw [databases_cleared, Keyed.lookup_insert]
      by_cases same : path = target
      · rw [if_pos same, same, copy]
      · rw [if_neg same]
        exact installing.databases path same

end Restored

end SessionSync.Import
