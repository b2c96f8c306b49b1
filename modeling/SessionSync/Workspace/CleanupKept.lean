import SessionSync.Workspace.DirectoryMoves
import Mathlib.Data.List.Nodup

set_option autoImplicit false

namespace SessionSync.Workspace

open SessionSync.Core Checked Local

-- The bytes of every Codex global state and every directory.
def AsBefore (base disk : CleanupDisk) : Prop := disk.directories = base.directories ∧ disk.globalStates = base.globalStates

def AtHome (base disk : CleanupDisk) (planned : QuarantinedWorkspaceDirectory) : Prop :=
  disk.directories planned.originalPath = base.directories planned.originalPath ∧ disk.directories planned.quarantinePath = none

-- Where a directory of the plan can be found.
inductive Stands (base disk : CleanupDisk) (planned : QuarantinedWorkspaceDirectory) : Prop where
  | home (same : AtHome base disk planned)
  | doubled (was : base.directories planned.originalPath = some emptyDirectory)
      (original : disk.directories planned.originalPath = some emptyDirectory)
      (quarantined : disk.directories planned.quarantinePath = some emptyDirectory)
  | away (was : base.directories planned.originalPath = some emptyDirectory) (original : disk.directories planned.originalPath = none)
      (quarantined : disk.directories planned.quarantinePath = some emptyDirectory)

-- The names that the operation draws are new.
structure NewCleanup (operationId : Uuid) (base : CleanupDisk) : Prop where
  unwritten : base.journals[operationId]? = none
  unsaved : base.backups operationId = none
  unused : ∀ index name, base.directories (.quarantine operationId index name) = none

section Kept

variable (env : CleanupEnv) (base : CleanupDisk) (input : CleanupInput) (plan : CleanupPlan)

structure Planned : Prop where
  state : plan.globalState = base.globalStates (globalStatePath input.codexHome)
  updates : plan.updatedState ≠ none → plan.globalState ≠ none
  apart : ∀ bytes updated, plan.globalState = some bytes → plan.updatedState = some updated →
    digestBytes env.lib bytes = digestBytes env.lib updated → bytes = updated
  originals : (plan.plannedQuarantines.map QuarantinedWorkspaceDirectory.originalPath).Nodup
  quarantines : (plan.plannedQuarantines.map QuarantinedWorkspaceDirectory.quarantinePath).Nodup
  kinds : ∀ planned ∈ plan.plannedQuarantines, (∃ path, planned.originalPath = .workspace path) ∧
    ∃ index name, planned.quarantinePath = .quarantine input.operationId index name

-- The global state is what it was, or its backup is there.
inductive Live (disk : CleanupDisk) : Prop where
  | same (still : disk.globalStates (globalStatePath input.codexHome) = base.globalStates (globalStatePath input.codexHome))
  | changing (bytes updated : Bytes) (state : plan.globalState = some bytes) (new : plan.updatedState = some updated)
      (saved : disk.backups input.operationId = some bytes)
      (found : disk.globalStates (globalStatePath input.codexHome) = none ∨
        disk.globalStates (globalStatePath input.codexHome) = some updated)

def Own (journal : WorkspaceCleanupJournal) : Prop :=
  ∃ status error, journal = { newJournal env input plan with status := status, error := error }

structure Frame (disk : CleanupDisk) : Prop where
  elsewhere : ∀ place, (∀ planned ∈ plan.plannedQuarantines, place ≠ planned.originalPath ∧ place ≠ planned.quarantinePath) →
    disk.directories place = base.directories place
  pairs : ∀ planned ∈ plan.plannedQuarantines, Stands base disk planned
  others : ∀ path, path ≠ globalStatePath input.codexHome → disk.globalStates path = base.globalStates path
  live : Live base input plan disk
  backup : ∀ bytes, disk.backups input.operationId = some bytes → plan.globalState = some bytes
  journals : ∀ id : Uuid, id ≠ input.operationId → disk.journals[id]? = base.journals[id]?
  own : ∀ journal, disk.journals[input.operationId]? = some journal → Own env input plan journal

-- The cleanup or its rollback is going on.
structure Working (disk : CleanupDisk) : Prop extends Frame env base input plan disk where
  unfinished : ∀ journal, disk.journals[input.operationId]? = some journal → journal.status ≠ .rolledBack

structure Kept (disk : CleanupDisk) : Prop extends Frame env base input plan disk where
  undone : ∀ journal, disk.journals[input.operationId]? = some journal → journal.status = .rolledBack → AsBefore base disk

variable {env base input plan}

theorem working_kept (disk : CleanupDisk) (working : Working env base input plan disk) : Kept env base input plan disk :=
  ⟨working.toFrame, fun journal stored rolled => absurd rolled (working.unfinished journal stored)⟩

theorem frame_start (new : NewCleanup input.operationId base) (planned : Planned env base input plan) :
    Working env base input plan base := by
  refine ⟨⟨fun _ _ => rfl, fun pair member => .home ⟨rfl, ?_⟩, fun _ _ => rfl, .same rfl, fun bytes saved => ?_, fun _ _ => rfl,
    fun journal stored => ?_⟩, fun journal stored => ?_⟩
  · obtain ⟨index, name, place⟩ := (planned.kinds pair member).2
    rw [place]
    exact new.unused index name
  · rw [new.unsaved] at saved
    cases saved
  · rw [new.unwritten] at stored
    cases stored
  · rw [new.unwritten] at stored
    cases stored

section Pairs

variable (planned : Planned env base input plan)

include planned

theorem places_apart (pair : QuarantinedWorkspaceDirectory) (member : pair ∈ plan.plannedQuarantines) :
    pair.originalPath ≠ pair.quarantinePath := by
  obtain ⟨⟨path, original⟩, index, name, quarantine⟩ := planned.kinds pair member
  rw [original, quarantine]
  exact nofun

-- Two directories of the plan have no place in common.
theorem pairs_apart (one other : QuarantinedWorkspaceDirectory) (first : one ∈ plan.plannedQuarantines)
    (second : other ∈ plan.plannedQuarantines) (different : one ≠ other) :
    (other.originalPath ≠ one.originalPath ∧ other.originalPath ≠ one.quarantinePath) ∧
      other.quarantinePath ≠ one.originalPath ∧ other.quarantinePath ≠ one.quarantinePath := by
  have originals : other.originalPath ≠ one.originalPath := fun same =>
    different (List.inj_on_of_nodup_map planned.originals first second same.symm)
  have quarantines : other.quarantinePath ≠ one.quarantinePath := fun same =>
    different (List.inj_on_of_nodup_map planned.quarantines first second same.symm)
  obtain ⟨⟨path, original⟩, index, name, quarantine⟩ := planned.kinds one first
  obtain ⟨⟨path', original'⟩, index', name', quarantine'⟩ := planned.kinds other second
  refine ⟨⟨originals, ?_⟩, ?_, quarantines⟩
  · rw [original', quarantine]
    exact nofun
  · rw [quarantine', original]
    exact nofun

variable {disk after : CleanupDisk} {pair : QuarantinedWorkspaceDirectory} (member : pair ∈ plan.plannedQuarantines)
  (still : ∀ place, place ≠ pair.originalPath → place ≠ pair.quarantinePath → after.directories place = disk.directories place)

include member still

theorem other_home (other : QuarantinedWorkspaceDirectory) (inside : other ∈ plan.plannedQuarantines) (different : pair ≠ other)
    (home : AtHome base disk other) : AtHome base after other := by
  obtain ⟨original, quarantine⟩ := pairs_apart planned pair other member inside different
  rw [AtHome, still _ original.1 original.2, still _ quarantine.1 quarantine.2]
  exact home

theorem other_stands (other : QuarantinedWorkspaceDirectory) (inside : other ∈ plan.plannedQuarantines) (different : pair ≠ other)
    (stands : Stands base disk other) : Stands base after other := by
  obtain ⟨original, quarantine⟩ := pairs_apart planned pair other member inside different
  cases stands with
  | home same => exact .home (other_home planned member still other inside different same)
  | doubled was first second =>
      exact .doubled was ((still _ original.1 original.2).trans first) ((still _ quarantine.1 quarantine.2).trans second)
  | away was first second =>
      exact .away was ((still _ original.1 original.2).trans first) ((still _ quarantine.1 quarantine.2).trans second)

theorem working_pair (stands : Stands base after pair) (globals : after.globalStates = disk.globalStates)
    (backups : after.backups = disk.backups) (journals : after.journals = disk.journals)
    (working : Working env base input plan disk) :
    Working env base input plan after := by
  refine ⟨⟨fun place outside => ?_, fun other inside => ?_, fun path apart => ?_, ?_, fun bytes saved => ?_, fun id apart => ?_,
    fun journal stored => ?_⟩, fun journal stored => ?_⟩
  · rw [still place (outside pair member).1 (outside pair member).2]
    exact working.elsewhere place outside
  · by_cases same : pair = other
    · exact same ▸ stands
    · exact other_stands planned member still other inside same (working.pairs other inside)
  · rw [globals]
    exact working.others path apart
  · cases working.live with
    | same kept => exact .same (globals ▸ kept)
    | changing bytes updated state new saved found => exact .changing bytes updated state new (backups ▸ saved) (globals ▸ found)
  · exact working.backup bytes (backups ▸ saved)
  · rw [journals]
    exact working.journals id apart
  · exact working.own journal (journals ▸ stored)
  · exact working.unfinished journal (journals ▸ stored)

end Pairs

end Kept

end SessionSync.Workspace
