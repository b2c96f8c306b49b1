import SessionSync.Import.Operation

set_option autoImplicit false

namespace SessionSync.Import

open SessionSync.Core Checked Local Storage Checkout Rollout

variable {δ : Type}

-- What the claim compares: the files of the session trees and the databases.
structure SameHome (start after : Disk δ) : Prop where
  rollouts : ∀ path, rolloutAt path after = rolloutAt path start
  databases : ∀ path : String, after.databases[path]? = start.databases[path]?

theorem rollout_set (path other : RolloutPath) (bytes : Option Bytes) (disk : Disk δ) :
    rolloutAt other (setRollout path bytes disk) = if other = path then bytes else rolloutAt other disk := by
  obtain ⟨slot, name⟩ := path
  obtain ⟨otherSlot, otherName⟩ := other
  by_cases tree : otherSlot = slot
  · subst tree
    cases bytes with
    | none =>
        have inside : liveTree otherSlot (setRollout (otherSlot, name) none disk) = (liveTree otherSlot disk).erase name := by
          simp only [liveTree, setRollout, Disk.put, if_true]
        rw [rolloutAt, inside, rolloutAt, Keyed.lookup_erase]
        by_cases same : otherName = name
        · simp [same]
        · simp [same]
    | some bytes =>
        have inside : liveTree otherSlot (setRollout (otherSlot, name) (some bytes) disk) =
          (liveTree otherSlot disk).insert name bytes := by
          simp only [liveTree, setRollout, Disk.put, if_true]
        rw [rolloutAt, inside, rolloutAt, Keyed.lookup_insert]
        by_cases same : otherName = name
        · simp [same]
        · simp [same]
  · have outside : liveTree otherSlot (setRollout (slot, name) bytes disk) = liveTree otherSlot disk := by
      simp [liveTree, setRollout, Disk.put, tree]
    simp [rolloutAt, outside, tree]

@[simp] theorem databases_set (path : RolloutPath) (bytes : Option Bytes) (disk : Disk δ) :
    (setRollout path bytes disk).databases = disk.databases := rfl

-- The home without the file, if it was there.
def dropped (path : RolloutPath) (disk : Disk δ) : Disk δ := (removeRollout path disk).toOption.getD disk

theorem rollout_dropped (path other : RolloutPath) (disk : Disk δ) :
    rolloutAt other (dropped path disk) = if other = path then none else rolloutAt other disk := by
  unfold dropped removeRollout
  cases there : rolloutAt path disk with
  | some bytes => exact rollout_set path other none disk
  | none =>
      by_cases same : other = path
      · rw [if_pos same, same]
        exact there
      · rw [if_neg same]
        rfl

theorem databases_dropped (path : RolloutPath) (disk : Disk δ) : (dropped path disk).databases = disk.databases := by
  unfold dropped removeRollout
  cases rolloutAt path disk <;> rfl

section Clear

variable (lib : Primitives)

def clearTarget (rollout : JournalRollout) (disk : Disk δ) : Disk δ :=
  if (rolloutAt rollout.targetPath disk).map (digestBytes lib) = some rollout.sha256 then dropped rollout.targetPath disk else disk

-- One round of the rollback: the temporary file goes, and so does a target whose hash
-- is the recorded one.
def clearRollout (disk : Disk δ) (rollout : JournalRollout) : Disk δ := clearTarget lib rollout (dropped rollout.temporaryPath disk)

def clearRollouts (planned : List JournalRollout) (disk : Disk δ) : Disk δ := planned.foldl (clearRollout lib) disk

theorem databases_cleared (planned : List JournalRollout) (disk : Disk δ) :
    (clearRollouts lib planned disk).databases = disk.databases := by
  induction planned generalizing disk with
  | nil => rfl
  | cons rollout rest ih =>
      refine (ih _).trans ?_
      unfold clearRollout clearTarget
      split
      · rw [databases_dropped, databases_dropped]
      · rw [databases_dropped]

-- A round removes what it names and nothing else.
theorem clear_fewer (rollout : JournalRollout) (path : RolloutPath) (disk : Disk δ) :
    rolloutAt path (clearRollout lib disk rollout) = rolloutAt path disk ∨ rolloutAt path (clearRollout lib disk rollout) = none := by
  unfold clearRollout clearTarget
  split
  · simp only [rollout_dropped]
    split
    · exact .inr rfl
    · split
      · exact .inr rfl
      · exact .inl rfl
  · rw [rollout_dropped]
    split
    · exact .inr rfl
    · exact .inl rfl

theorem clear_temporary (rollout : JournalRollout) (disk : Disk δ) :
    rolloutAt rollout.temporaryPath (clearRollout lib disk rollout) = none := by
  unfold clearRollout clearTarget
  split
  · simp [rollout_dropped]
  · simp [rollout_dropped]

theorem clear_target (rollout : JournalRollout) (disk : Disk δ) (bytes : Bytes)
    (left : rolloutAt rollout.targetPath (clearRollout lib disk rollout) = some bytes) : digestBytes lib bytes ≠ rollout.sha256 := by
  unfold clearRollout clearTarget at left
  split at left
  · simp [rollout_dropped] at left
  · next differs =>
      intro same
      exact differs (by rw [left, Option.map_some, same])

-- What a round leaves alone.
def Spared (rollout : JournalRollout) (path : RolloutPath) (bytes : Bytes) : Prop :=
  path ≠ rollout.temporaryPath ∧ (path = rollout.targetPath → digestBytes lib bytes ≠ rollout.sha256)

theorem clear_spared (rollout : JournalRollout) (path : RolloutPath) (disk : Disk δ) (bytes : Bytes)
    (there : rolloutAt path disk = some bytes) (spared : Spared lib rollout path bytes) :
    rolloutAt path (clearRollout lib disk rollout) = some bytes := by
  obtain ⟨apart, differs⟩ := spared
  have kept : rolloutAt path (dropped rollout.temporaryPath disk) = some bytes := by rw [rollout_dropped, if_neg apart, there]
  unfold clearRollout clearTarget
  split
  · next matched =>
      rw [rollout_dropped, if_neg ?_, kept]
      intro same
      rw [← same, kept, Option.map_some, Option.some.injEq] at matched
      exact differs same matched
  · exact kept

structure Cleared (planned : List JournalRollout) (before after : Disk δ) : Prop where
  fewer : ∀ path, rolloutAt path after = rolloutAt path before ∨ rolloutAt path after = none
  temporary : ∀ rollout ∈ planned, rolloutAt rollout.temporaryPath after = none
  target : ∀ rollout ∈ planned, ∀ bytes, rolloutAt rollout.targetPath after = some bytes → digestBytes lib bytes ≠ rollout.sha256
  spared : ∀ path bytes, rolloutAt path before = some bytes → (∀ rollout ∈ planned, Spared lib rollout path bytes) →
    rolloutAt path after = some bytes

theorem cleared (planned : List JournalRollout) (disk : Disk δ) : Cleared lib planned disk (clearRollouts lib planned disk) := by
  induction planned generalizing disk with
  | nil =>
      exact ⟨fun _ => .inl rfl, fun _ member => absurd member List.not_mem_nil, fun _ member => absurd member List.not_mem_nil,
        fun _ _ there _ => there⟩
  | cons rollout rest ih =>
      obtain ⟨fewer, temporary, target, spared⟩ := ih (clearRollout lib disk rollout)
      have stays : ∀ path, rolloutAt path (clearRollout lib disk rollout) = none →
          rolloutAt path (clearRollouts lib rest (clearRollout lib disk rollout)) = none := fun path gone =>
        (fewer path).elim (fun same => same.trans gone) id
      refine ⟨fun path => ?_, List.forall_mem_cons.mpr ⟨stays _ (clear_temporary lib rollout disk), temporary⟩,
        List.forall_mem_cons.mpr ⟨fun bytes left => ?_, target⟩, fun path bytes there each => ?_⟩
      · rcases clear_fewer lib rollout path disk with same | gone
        · rw [← same]
          exact fewer path
        · exact .inr (stays path gone)
      · rcases fewer rollout.targetPath with same | gone
        · exact clear_target lib rollout disk bytes (same ▸ left)
        · exact absurd (gone ▸ left) nofun
      · obtain ⟨own, others⟩ := List.forall_mem_cons.mp each
        exact spared path bytes (clear_spared lib rollout path disk bytes there own) others

end Clear

end SessionSync.Import
