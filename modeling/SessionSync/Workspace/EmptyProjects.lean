import SessionSync.Core.Sha256
import SessionSync.Workspace.ProjectReferences

set_option autoImplicit false

namespace SessionSync.Workspace

open SessionSync.Core Checked Local Config Rollout

section Shape

def ArrayOf (value : Value) : Prop := ∃ values, value = .array values

def ObjectOf (entries : String × Value → Prop) (value : Value) : Prop :=
  ∃ fields, value = .object fields ∧ ∀ entry ∈ fields, entries entry

-- The documents that the removal reads to their end.
structure Shaped (state : Value) : Prop where
  object : ObjectOf (fun _ => True) state
  projects : ∀ value, Rollout.get state "local-projects" = some value →
    ObjectOf (fun project => ∃ fields, project.2 = .object fields ∧ ∀ roots, fieldOf fields "rootPaths" = some roots →
      ArrayOf roots) value
  arrays : ∀ key ∈ ["active-workspace-roots", "electron-saved-workspace-roots", "project-order"], ∀ value,
    Rollout.get state key = some value → ArrayOf value
  objects : ∀ key ∈ ["thread-project-assignments", "thread-workspace-root-hints"], ∀ value, Rollout.get state key = some value →
    ObjectOf (fun _ => True) value
  writable : ∀ value, Rollout.get state "thread-writable-roots" = some value → ObjectOf (fun entry => ArrayOf entry.2) value

theorem outcome_succeeds (step : FieldStep Pruned) (before : Option Value) :
    (∃ outcome, step.outcome before = .ok outcome) ↔ ∀ value, before = some value → ∃ result, step.run value = .ok result := by
  cases before with
  | none => exact iff_of_true ⟨_, rfl⟩ nofun
  | some value =>
      simp only [FieldStep.outcome, bind_ok, pure_ok, Option.some.injEq, forall_eq']
      constructor
      · intro outcome
        obtain ⟨_, result, ran, _⟩ := outcome
        exact ⟨result, ran⟩
      · intro ran
        obtain ⟨result, ran⟩ := ran
        exact ⟨_, result, ran, rfl⟩

theorem values_succeed (drops : String → Bool) (error : String) (value : Value) :
    (∃ result, retainValues drops error value = .ok result) ↔ ArrayOf value := by
  constructor
  · intro ran
    obtain ⟨⟨after, note⟩, ran⟩ := ran
    obtain ⟨values, same, _⟩ := (retain_values_ok drops error value after note).mp ran
    exact ⟨values, same⟩
  · intro array
    obtain ⟨values, same⟩ := array
    exact ⟨_, (retain_values_ok drops error value _ _).mpr ⟨values, same, rfl, rfl⟩⟩

theorem entries_succeed (drops : Value → Bool) (error : String) (value : Value) :
    (∃ result, retainEntries drops error value = .ok result) ↔ ObjectOf (fun _ => True) value := by
  constructor
  · intro ran
    obtain ⟨⟨after, gone⟩, ran⟩ := ran
    obtain ⟨entries, same, _⟩ := (retain_entries_ok drops error value after gone).mp ran
    exact ⟨entries, same, fun _ _ => trivial⟩
  · intro object
    obtain ⟨entries, same, _⟩ := object
    exact ⟨_, (retain_entries_ok drops error value _ _).mpr ⟨entries, same, rfl, rfl⟩⟩

variable (selectedPaths : List (List Char)) (removed : List String)

theorem assignments_succeed (value : Value) :
    (∃ result, retainAssignments selectedPaths removed value = .ok result) ↔ ObjectOf (fun _ => True) value := by
  rw [← entries_succeed (dropsAssignment selectedPaths removed) "Codex global state thread-project-assignments field is not an object"]
  simp only [retainAssignments, bind_ok, pure_ok]
  constructor
  · intro ended
    obtain ⟨_, kept, ran, _⟩ := ended
    exact ⟨kept, ran⟩
  · intro ended
    obtain ⟨kept, ran⟩ := ended
    exact ⟨_, kept, ran, rfl⟩

theorem hints_succeed (value : Value) : (∃ result, retainHints selectedPaths value = .ok result) ↔
    ObjectOf (fun _ => True) value := by
  rw [← entries_succeed (fun path => path.asStr.any (belowSelected selectedPaths))
    "Codex global state thread-workspace-root-hints field is not an object"]
  simp only [retainHints, bind_ok, pure_ok]
  constructor
  · intro ended
    obtain ⟨_, kept, ran, _⟩ := ended
    exact ⟨kept, ran⟩
  · intro ended
    obtain ⟨kept, ran⟩ := ended
    exact ⟨_, kept, ran, rfl⟩

theorem writable_succeeds (value : Value) :
    (∃ result, retainWritableRoots selectedPaths value = .ok result) ↔ ObjectOf (fun entry => ArrayOf entry.2) value := by
  have each : ∀ entry : String × Value, (∃ result, retainRoots selectedPaths entry = .ok result) ↔ ArrayOf entry.2 := by
    intro entry
    constructor
    · intro ran
      obtain ⟨result, ran⟩ := ran
      obtain ⟨roots, same, _⟩ := (retain_roots_ok selectedPaths entry result).mp ran
      exact ⟨roots, same⟩
    · intro array
      obtain ⟨roots, same⟩ := array
      exact ⟨_, (retain_roots_ok selectedPaths entry _).mpr ⟨roots, same, rfl⟩⟩
  constructor
  · intro ran
    obtain ⟨⟨after, note⟩, ran⟩ := ran
    obtain ⟨entries, kept, same, all, _⟩ := (writable_ok selectedPaths value after note).mp ran
    exact ⟨entries, same, fun entry member => (each entry).mp ((map_each_iff _ entries).mp ⟨kept, all⟩ entry member)⟩
  · intro object
    obtain ⟨entries, same, arrays⟩ := object
    obtain ⟨kept, all⟩ := (map_each_iff (retainRoots selectedPaths) entries).mpr fun entry member =>
      (each entry).mpr (arrays entry member)
    exact ⟨_, (writable_ok selectedPaths value _ _).mpr ⟨entries, kept, same, all, rfl, rfl⟩⟩

theorem entry_succeeds (project : String × Value) : (∃ result, pruneEntry selectedPaths project = .ok result) ↔
    ∃ fields, project.2 = .object fields ∧ ∀ roots, fieldOf fields "rootPaths" = some roots → ArrayOf roots := by
  obtain ⟨id, project⟩ := project
  constructor
  · intro ran
    obtain ⟨result, ran⟩ := ran
    obtain ⟨fields, rfl, ⟨absent, _⟩ | ⟨values, held, _⟩⟩ := prune_entry_ok selectedPaths id project result ran
    · exact ⟨fields, rfl, fun roots there => nomatch absent.symm.trans there⟩
    · exact ⟨fields, rfl, fun roots there => ⟨values, Option.some.inj (there.symm.trans held)⟩⟩
  · intro shaped
    obtain ⟨fields, rfl, arrays⟩ := shaped
    cases held : fieldOf fields "rootPaths" with
    | none =>
        refine ⟨((id, .object fields), {}), ?_⟩
        simp only [pruneEntry, pruneProject, asObject, present, held]
        rfl
    | some roots =>
        obtain ⟨values, rfl⟩ := arrays roots held
        exact ⟨_, prune_array selectedPaths id fields values held⟩

theorem projects_succeed (value : Value) : (∃ result, pruneProjects selectedPaths value = .ok result) ↔
    ObjectOf (fun project => ∃ fields, project.2 = .object fields ∧ ∀ roots, fieldOf fields "rootPaths" = some roots →
      ArrayOf roots) value := by
  constructor
  · intro ran
    obtain ⟨⟨after, note⟩, ran⟩ := ran
    obtain ⟨projects, pruned, same, all, _⟩ := prune_projects_ok selectedPaths value after note ran
    exact ⟨projects, same, fun project member => (entry_succeeds selectedPaths project).mp
      ((map_each_iff _ projects).mp ⟨pruned, all⟩ project member)⟩
  · intro object
    obtain ⟨projects, rfl, shaped⟩ := object
    obtain ⟨pruned, all⟩ := (map_each_iff (pruneEntry selectedPaths) projects).mpr fun project member =>
      (entry_succeeds selectedPaths project).mpr (shaped project member)
    simp only [pruneProjects, asObject, present, all]
    exact ⟨_, rfl⟩

theorem deselect_succeeds (value : Value) : ∃ result, deselect removed value = .ok result := by
  by_cases selects : (projectIdOf value).any (· ∈ removed) = true
  · exact ⟨_, if_pos selects⟩
  · exact ⟨_, if_neg selects⟩

theorem steps_shaped (fields : Fields) : (∀ step ∈ localProjects selectedPaths :: references selectedPaths removed,
    ∃ outcome, step.outcome (fieldOf fields step.key) = .ok outcome) ↔ Shaped (.object fields) := by
  simp only [outcome_succeeds, localProjects, references, List.forall_mem_cons, List.not_mem_nil, false_implies,
    implies_true, and_true, projects_succeed, values_succeed, assignments_succeed, hints_succeed, writable_succeeds,
      deselect_succeeds, true_and]
  constructor
  · intro shaped
    obtain ⟨projects, active, saved, order, assignments, hints, writable⟩ := shaped
    exact ⟨⟨fields, rfl, fun _ _ => trivial⟩, projects,
      by simpa using ⟨active, saved, order⟩, by simpa using ⟨assignments, hints⟩, writable⟩
  · intro shaped
    exact ⟨shaped.projects, shaped.arrays _ (.head _), shaped.arrays _ (.tail _ (.head _)),
      shaped.arrays _ (.tail _ (.tail _ (.head _))), shaped.objects _ (.head _), shaped.objects _ (.tail _ (.head _)),
        shaped.writable⟩

theorem removal_succeeds (before : Value) : (∃ outcome, removeCodexProjectPaths selectedPaths before = .ok outcome) ↔
    Shaped before := by
  constructor
  · intro ran
    obtain ⟨⟨after, result⟩, ran⟩ := ran
    obtain ⟨fields, mid, kept, first, others, rfl, one, rest, _⟩ := (removal_ok selectedPaths before after result).mp ran
    refine (steps_shaped selectedPaths (first.flatMap Pruned.removedProjectIds) fields).mp ?_
    exact (steps_succeed _ (steps_apart selectedPaths _) fields).mp
      ⟨_, (run_steps_cons _ _ fields kept _).mpr ⟨mid, first, others, one, rest, rfl⟩⟩
  · intro shaped
    obtain ⟨fields, rfl, _⟩ := shaped.object
    have runs := fun removed => (steps_succeed _ (steps_apart selectedPaths removed) fields).mpr
      ((steps_shaped selectedPaths removed fields).mpr shaped)
    obtain ⟨⟨_, _⟩, some_⟩ := runs []
    obtain ⟨mid, first, _, one, _⟩ := (run_steps_cons _ _ fields _ _).mp some_
    obtain ⟨⟨kept, notes⟩, all⟩ := runs (first.flatMap Pruned.removedProjectIds)
    obtain ⟨other, own, others, again, rest, _⟩ := (run_steps_cons _ _ fields _ _).mp all
    cases one.symm.trans again
    exact ⟨_, (removal_ok selectedPaths _ _ _).mpr ⟨fields, mid, kept, first, others, rfl, one, rest, rfl, rfl⟩⟩

end Shape

section Conversations

-- A scanned thread is in or below the root.
def Conversing (snapshot : LocalSnapshot) (root : String) : Prop :=
  ∃ thread ∈ snapshot.threads, ∃ path, thread.workspace.sourcePath = some path ∧ pathIsSameOrChild path.toList root.toList = true

-- The directory is in or below a configured root that no scanned thread is in or below.
def InEmptyRoot (paths : List CodexProjectPath) (snapshot : LocalSnapshot) (cwd : String) : Prop :=
  ∃ project ∈ paths, ¬ Conversing snapshot project.path ∧
    pathIsSameOrChild cwd.toList (normalizePathForMatch project.path.toList) = true

def scannedPaths (snapshot : LocalSnapshot) : List String := snapshot.threads.filterMap fun thread => thread.workspace.sourcePath

variable (paths : List CodexProjectPath) (snapshot : LocalSnapshot)

theorem conversing_iff (root : String) :
    ((scannedPaths snapshot).any fun path => pathIsSameOrChild path.toList root.toList) = true ↔ Conversing snapshot root := by
  simp only [scannedPaths, List.any_eq_true, List.mem_filterMap, Conversing]
  constructor
  · intro found
    obtain ⟨path, ⟨thread, member, held⟩, below⟩ := found
    exact ⟨thread, member, path, held, below⟩
  · intro found
    obtain ⟨thread, member, path, held, below⟩ := found
    exact ⟨path, ⟨thread, member, held⟩, below⟩

theorem empty_root_iff (key : List Char) : key ∈ emptyRoots paths (scannedPaths snapshot) ↔
    ∃ project ∈ paths, ¬ Conversing snapshot project.path ∧ normalizePathForMatch project.path.toList = key := by
  simp only [emptyRoots, List.mem_map, List.mem_filter, Bool.not_eq_true', ← Bool.not_eq_true, conversing_iff, and_assoc]

-- Two roots that match alike have the same conversations.
theorem conversing_unselected (root : String) (conversing : Conversing snapshot root) :
    isSelected (emptyRoots paths (scannedPaths snapshot)) root = false := by
  rw [← Bool.not_eq_true, isSelected, decide_eq_true_iff, empty_root_iff]
  intro selected
  obtain ⟨project, _, empty, same⟩ := selected
  obtain ⟨thread, member, path, held, below⟩ := conversing
  refine empty ⟨thread, member, path, held, ?_⟩
  rwa [pathIsSameOrChild, same]

theorem below_iff (cwd : String) : belowSelected (emptyRoots paths (scannedPaths snapshot)) cwd = true ↔
    InEmptyRoot paths snapshot cwd := by
  rw [belowSelected, List.any_eq_true]
  constructor
  · intro found
    obtain ⟨key, member, below⟩ := found
    obtain ⟨project, among, empty, rfl⟩ := (empty_root_iff paths snapshot key).mp member
    exact ⟨project, among, empty, below⟩
  · intro found
    obtain ⟨project, among, empty, below⟩ := found
    exact ⟨_, (empty_root_iff paths snapshot _).mpr ⟨project, among, empty, rfl⟩, below⟩

end Conversations

section Repair

-- What a repair makes of the document it reads.
structure Repaired (globalState : CodexGlobalState) (snapshot : LocalSnapshot) (after : Value) : Prop where
  removed : ∃ result, PathsRemoved (emptyRoots globalState.projectPaths (scannedPaths snapshot)) globalState.value after result
  projects : ∀ id project roots root, projectOf globalState.value id = some project →
    Rollout.get project "rootPaths" = some (.array roots) →
    Value.string root ∈ roots → Conversing snapshot root →
    ∃ kept left, projectOf after id = some kept ∧ Rollout.get kept "rootPaths" = some (.array left) ∧ Value.string root ∈ left
  assignments : ∀ entries, Rollout.get globalState.value "thread-project-assignments" = some (.object entries) →
    ∃ kept, Rollout.get after "thread-project-assignments" = some (.object kept) ∧ ∀ entry ∈ entries, ∀ id,
      projectIdOf entry.2 = some id →
      projectOf after id ≠ none → (entry ∈ kept ↔ ∀ cwd, (Rollout.get entry.2 "cwd").bind Value.asStr = some cwd →
        ¬ InEmptyRoot globalState.projectPaths snapshot cwd)

theorem kept_root (selectedPaths : List (List Char)) (project : Value) (roots : List Value)
    (held : Rollout.get project "rootPaths" = some (.array roots)) :
    Rollout.get (withoutSelected selectedPaths project) "rootPaths" =
      some (.array (roots.filter (staysUnless (isSelected selectedPaths)))) := by
  cases project with
  | object fields =>
      rw [Rollout.get] at held
      rw [withoutSelected, mapField, Rollout.get, field_alter, if_pos rfl, held]
      rfl
  | _ => cases held

theorem repaired (globalState : CodexGlobalState) (snapshot : LocalSnapshot) (after : Value) (result : CodexProjectCleanupResult)
    (removed : PathsRemoved (emptyRoots globalState.projectPaths (scannedPaths snapshot)) globalState.value after result) :
    Repaired globalState snapshot after where
  removed := ⟨result, removed⟩
  projects := by
    intro id project roots root there held member conversing
    have unselected := conversing_unselected globalState.projectPaths snapshot root conversing
    have survives : allSelected (emptyRoots globalState.projectPaths (scannedPaths snapshot)) project = false := by
      rw [allSelected, held, Option.bind_some, asArray, Option.any_some, Bool.and_eq_false_iff, List.all_eq_false]
      refine .inr ⟨.string root, member, ?_⟩
      simp [Value.asStr, unselected]
    refine ⟨_, _, removed.kept id project there survives, kept_root _ project roots held, List.mem_filter.mpr ⟨member, ?_⟩⟩
    simp [staysUnless, Value.asStr, unselected]
  assignments := by
    intro entries held
    refine ⟨_, by rw [removed.assignments, held]; rfl, fun entry member id names survives => ?_⟩
    have stays : removes (emptyRoots globalState.projectPaths (scannedPaths snapshot)) globalState.value id = false := by
      cases there : projectOf globalState.value id with
      | none => exact absurd (removed.new id there) survives
      | some project =>
          rw [removes, there, Option.any_some, ← Bool.not_eq_true]
          exact fun selected => survives ((removed.gone id project there).mpr selected)
    rw [List.mem_filter, and_iff_right member, keepsAssignment, names, Option.any_some, stays, Bool.false_or, Bool.not_eq_true',
      ← Bool.not_eq_true, Option.any_eq_true]
    constructor
    · intro outside cwd recorded inside
      exact outside ⟨cwd, recorded, (below_iff _ snapshot cwd).mpr inside⟩
    · intro outside inside
      obtain ⟨cwd, recorded, below⟩ := inside
      exact outside cwd recorded ((below_iff _ snapshot cwd).mp below)

-- What a repair is to leave: each project at a root with a scanned thread, and what
-- assigns a scanned thread to a project that survives.
structure RepairKeeps (before : Value) (snapshot : LocalSnapshot) (after : Value) : Prop where
  projects : ∀ id project roots root, projectOf before id = some project → Rollout.get project "rootPaths" = some (.array roots) →
    Value.string root ∈ roots → Conversing snapshot root → projectOf after id ≠ none
  assignments : ∀ thread ∈ snapshot.threads, ∀ entries assignment id,
    Rollout.get before "thread-project-assignments" = some (.object entries) → (thread.threadId, assignment) ∈ entries →
    projectIdOf assignment = some id → projectOf after id ≠ none →
    ∃ kept, Rollout.get after "thread-project-assignments" = some (.object kept) ∧ (thread.threadId, assignment) ∈ kept

-- The project has no roots, or one that is not among the empty ones.
def Survives (globalState : CodexGlobalState) (snapshot : LocalSnapshot) (id : String) : Prop :=
  ∃ project, projectOf globalState.value id = some project ∧
    allSelected (emptyRoots globalState.projectPaths (scannedPaths snapshot)) project = false

-- No scanned thread is assigned to a project that survives and recorded in an empty root.
def RecordedOutside (globalState : CodexGlobalState) (snapshot : LocalSnapshot) : Prop :=
  ∀ thread ∈ snapshot.threads, ∀ entries assignment id,
    Rollout.get globalState.value "thread-project-assignments" = some (.object entries) → (thread.threadId, assignment) ∈ entries →
    projectIdOf assignment = some id → Survives globalState snapshot id →
    ∀ cwd, (Rollout.get assignment "cwd").bind Value.asStr = some cwd → ¬ InEmptyRoot globalState.projectPaths snapshot cwd

theorem survives_iff (globalState : CodexGlobalState) (snapshot : LocalSnapshot) (after : Value) (result : CodexProjectCleanupResult)
    (removed : PathsRemoved (emptyRoots globalState.projectPaths (scannedPaths snapshot)) globalState.value after result)
    (id : String) :
    projectOf after id ≠ none ↔ Survives globalState snapshot id := by
  rw [Survives]
  cases there : projectOf globalState.value id with
  | none => exact iff_of_false (fun left => left (removed.new id there)) nofun
  | some project => simp [removed.gone id project there]

theorem repair_keeps_iff (globalState : CodexGlobalState) (snapshot : LocalSnapshot) (after : Value)
    (result : CodexProjectCleanupResult)
    (removed : PathsRemoved (emptyRoots globalState.projectPaths (scannedPaths snapshot)) globalState.value after result) :
    RepairKeeps globalState.value snapshot after ↔ RecordedOutside globalState snapshot := by
  have repair := repaired globalState snapshot after result removed
  have survives := survives_iff globalState snapshot after result removed
  constructor
  · intro keeps thread member entries assignment id held among names stays
    obtain ⟨kept, left, exact_⟩ := repair.assignments entries held
    obtain ⟨others, same, stayed⟩ := keeps.assignments thread member entries assignment id held among names ((survives id).mpr stays)
    cases left.symm.trans same
    exact (exact_ _ among id names ((survives id).mpr stays)).mp stayed
  · intro outside
    refine ⟨fun id project roots root there held member conversing => ?_,
      fun thread member entries assignment id held among names stays => ?_⟩
    · obtain ⟨kept, _, left, _⟩ := repair.projects id project roots root there held member conversing
      exact Option.ne_none_iff_exists'.mpr ⟨kept, left⟩
    · obtain ⟨kept, left, exact_⟩ := repair.assignments entries held
      exact ⟨kept, left, (exact_ _ among id names stays).mpr
        (outside thread member entries assignment id held among names ((survives id).mp stays))⟩

theorem unchanged_keeps (before : Value) (snapshot : LocalSnapshot) : RepairKeeps before snapshot before where
  projects _ project _ _ there _ _ _ := Option.ne_none_iff_exists'.mpr ⟨project, there⟩
  assignments _ _ entries _ _ held among _ _ := ⟨entries, held, among⟩

theorem no_empty_root (globalState : CodexGlobalState) (snapshot : LocalSnapshot)
    (none_ : emptyRoots globalState.projectPaths (scannedPaths snapshot) = []) : RecordedOutside globalState snapshot := by
  intro _ _ _ _ _ _ _ _ _ cwd _ inside
  have below := (below_iff _ snapshot cwd).mpr inside
  rw [none_] at below
  cases below

variable (env : ProjectEnv) (codexHome : String) (disk : CleanupDisk)

-- The document in the file when a run has returned, and when it keeps what it is to keep.
def Settles (globalState : CodexGlobalState) (snapshot : LocalSnapshot) (seen : CleanupDisk) : Prop :=
  ∃ after, (seen = disk ∧ after = globalState.value ∨
      seen = disk.setGlobalState (globalStatePath codexHome) (some (utf8 (writeJson env.lib after)))) ∧
    (RepairKeeps globalState.value snapshot after ↔ RecordedOutside globalState snapshot)

-- The file is the printed form of the repaired document, and nothing else is changed.
def Replaced (seen : CleanupDisk) : Prop :=
  ∃ globalState snapshot after, loadCodexGlobalState env codexHome disk = .ok (some globalState) ∧
    env.scanCodexHome disk = .ok snapshot ∧
    seen = disk.setGlobalState (globalStatePath codexHome) (some (utf8 (writeJson env.lib after))) ∧
      Repaired globalState snapshot after

theorem loaded_state (globalState : CodexGlobalState) (loaded : loadCodexGlobalState env codexHome disk = .ok (some globalState)) :
    disk.globalStates (globalStatePath codexHome) = some globalState.bytes ∧ WellFormed globalState.value := by
  rw [loadCodexGlobalState] at loaded
  cases stored : disk.globalStates (globalStatePath codexHome) with
  | none =>
      rw [stored] at loaded
      cases loaded
  | some bytes =>
      simp only [stored, bind_ok, map_error_ok, pure_ok, Option.some.injEq] at loaded
      obtain ⟨_, _, value, parsed, paths, _, rfl⟩ := loaded
      exact ⟨rfl, env.parsed bytes value parsed⟩

-- What a run that returns leaves.
def RepairReturned (outcome : Except String Nat) (seen : Faulty CleanupDisk) : Prop :=
  ∀ count, outcome = .ok count → (seen.state = disk ∨ Replaced env codexHome disk seen.state) ∧
    ∀ globalState snapshot, loadCodexGlobalState env codexHome disk = .ok (some globalState) → env.scanCodexHome disk = .ok snapshot →
      Settles env codexHome disk globalState snapshot seen.state

theorem returned_unchanged (count : Nat) (faults : List Bool)
    (outside : ∀ globalState snapshot, loadCodexGlobalState env codexHome disk = .ok (some globalState) →
      env.scanCodexHome disk = .ok snapshot → RecordedOutside globalState snapshot) :
    RepairReturned env codexHome disk (.ok count) ⟨disk, faults⟩ := fun _ _ =>
  ⟨.inl rfl, fun globalState snapshot loaded scanned => ⟨globalState.value, .inl ⟨rfl, rfl⟩,
    iff_of_true (unchanged_keeps globalState.value snapshot) (outside globalState snapshot loaded scanned)⟩⟩

theorem rewrite_safe (globalState : CodexGlobalState) (snapshot : LocalSnapshot) (faults : List Bool)
    (loaded : loadCodexGlobalState env codexHome disk = .ok (some globalState)) (scanned : env.scanCodexHome disk = .ok snapshot) :
    SafeAccess (fun seen => seen = disk ∨ seen = disk.setGlobalState (globalStatePath codexHome) none ∨
      Replaced env codexHome disk seen)
      (rewriteGlobalState env codexHome globalState (emptyRoots globalState.projectPaths (scannedPaths snapshot)))
      (RepairReturned env codexHome disk) ⟨disk, faults⟩ := by
  obtain ⟨_, formed⟩ := loaded_state env codexHome disk globalState loaded
  apply safe_check _ _ _ _ (.inl rfl)
  · intro removal ran
    obtain ⟨after, result⟩ := removal
    have removed := removed_project_paths _ globalState.value after result formed ran
    have keeps := repair_keeps_iff globalState snapshot after result removed
    have replaced : Replaced env codexHome disk
        (disk.setGlobalState (globalStatePath codexHome) (some (utf8 (writeJson env.lib after)))) :=
      ⟨globalState, snapshot, after, loaded, scanned, rfl, repaired globalState snapshot after result removed⟩
    -- The file and the scan that a statement names are the ones read here.
    have settled : ∀ seen, (seen = disk ∧ after = globalState.value ∨
          seen = disk.setGlobalState (globalStatePath codexHome) (some (utf8 (writeJson env.lib after)))) →
        ∀ other scan, loadCodexGlobalState env codexHome disk = .ok (some other) → env.scanCodexHome disk = .ok scan →
          Settles env codexHome disk other scan seen := by
      intro seen left other scan again rescanned
      cases loaded.symm.trans again
      cases scanned.symm.trans rescanned
      exact ⟨after, left, keeps⟩
    by_cases changed : result.changed = true
    · simp only [changed, if_true]
      apply safe_then _ _ _ _ _ (replace_safe env.toCleanupEnv _ _ _ disk faults (.inl rfl)
        fun live _ _ => ⟨.inr (.inl rfl), .inr (.inr replaced)⟩)
      · intro _ seen here written
        refine safe_done _ _ _ here fun _ _ => ?_
        rw [written rfl]
        exact ⟨.inr replaced, settled _ (.inr rfl)⟩
      · exact fun error _ _ _ count => no_value error count
    · simp only [changed]
      have same : after = globalState.value := not_not.mp fun differs => changed (removed.changed.mpr differs)
      exact safe_done _ _ _ (.inl rfl) fun _ _ => ⟨.inl rfl, settled _ (.inl ⟨rfl, same⟩)⟩
  · exact fun error _ count => no_value error count

-- In every state of a run the file is as it was, gone while it is replaced, or repaired.
theorem repair_safe (faults : List Bool) :
    SafeAccess (fun seen => seen = disk ∨ seen = disk.setGlobalState (globalStatePath codexHome) none ∨
      Replaced env codexHome disk seen)
      (removeEmptyCodexProjects env codexHome) (RepairReturned env codexHome disk) ⟨disk, faults⟩ := by
  apply safe_look _ _ _ _ (.inl rfl)
  · intro loaded faults read
    cases loaded with
    | none =>
        refine safe_done _ _ _ (.inl rfl) (returned_unchanged env codexHome disk 0 faults fun globalState _ loaded _ => ?_)
        cases read.symm.trans loaded
    | some globalState =>
        apply safe_look _ _ _ _ (.inl rfl)
        · intro snapshot faults scanned
          by_cases empty : (emptyRoots globalState.projectPaths (scannedPaths snapshot)).isEmpty = true
          · have outside := no_empty_root globalState snapshot (List.isEmpty_iff.mp empty)
            simp only [scannedPaths] at empty
            simp only [empty, if_true]
            refine safe_done _ _ _ (.inl rfl) (returned_unchanged env codexHome disk 0 faults fun other scan loaded rescanned => ?_)
            cases read.symm.trans loaded
            cases scanned.symm.trans rescanned
            exact outside
          · have rewritten := rewrite_safe env codexHome disk globalState snapshot faults read scanned
            simp only [scannedPaths] at empty rewritten
            simpa only [empty, if_false, Bool.false_eq_true] using rewritten
        · exact fun error _ count => no_value error count
  · exact fun error _ count => no_value error count

-- What a selection of paths removes from every document, what the repair leaves in
-- every run, and when that keeps every assignment it is to keep.
theorem codex_projects_removed (faults : List Bool) :
    (∀ selectedPaths before, WellFormed before →
      ((∃ outcome, removeCodexProjectPaths selectedPaths before = .ok outcome) ↔ Shaped before) ∧
      ∀ after result, removeCodexProjectPaths selectedPaths before = .ok (after, result) →
        PathsRemoved selectedPaths before after result) ∧
    SafeAccess (fun seen => seen = disk ∨ seen = disk.setGlobalState (globalStatePath codexHome) none ∨
      Replaced env codexHome disk seen)
      (removeEmptyCodexProjects env codexHome)
      (fun outcome seen => ∀ count, outcome = .ok count → seen.state = disk ∨ Replaced env codexHome disk seen.state) ⟨disk, faults⟩ ∧
    ∀ globalState snapshot count last, loadCodexGlobalState env codexHome disk = .ok (some globalState) →
      env.scanCodexHome disk = .ok snapshot → (removeEmptyCodexProjects env codexHome).exec ⟨disk, faults⟩ = (.ok count, last) →
      Settles env codexHome disk globalState snapshot last.state := by
  have safe := repair_safe env codexHome disk faults
  refine ⟨fun selectedPaths before formed => ⟨removal_succeeds selectedPaths before, fun after result =>
    removed_project_paths selectedPaths before after result formed⟩,
    Prog.safe_mono _ _ _ _ (fun outcome seen _ returned count ended => (returned count ended).1) safe, ?_⟩
  intro globalState snapshot count last loaded scanned ran
  have returned := ((Prog.safe_iff _ _ _).mp safe).2
  rw [ran] at returned
  exact (returned count rfl).2 globalState snapshot loaded scanned

end Repair

namespace ProjectSample

-- One project at two roots, whose one conversation is at the first root. The document
-- records a directory of that conversation.
def assignment (cwd : String) : Value := .object [("cwd", .string cwd), ("projectId", .string "p")]

def state (cwd : String) : Value :=
  .object [("local-projects", .object [("p", .object [("rootPaths", .array [.string "/a", .string "/b"])])]),
    ("thread-project-assignments", .object [("t", assignment cwd)])]

def repairedState (assignments : Fields) : Value :=
  .object [("local-projects", .object [("p", .object [("rootPaths", .array [.string "/a"])])]),
    ("thread-project-assignments", .object assignments)]

def selected : List (List Char) := ["/b".toList]

def conversation : ThreadBundle where
  schemaVersion := 1
  threadId := "t"
  title := "Thread"
  archived := false
  createdAtMs := none
  updatedAtMs := none
  modelProvider := none
  workspace := { logicalId := none, sourcePath := some "/a" }
  rollout :=
    { sha256 := "sha256:0", byteLength := 1, mediaType := "application/x-ndjson", logicalPath := none, sourcePath := none,
      storage := none }
  relatedRecords := { sourceDatabase := none, tables := ∅ }
  attachments := []

def bytes (cwd : String) : Bytes := utf8 (writeJson sampleLib (state cwd))

theorem singleton_formed (key : String) (value : Value) (formed : WellFormed value) : WellFormed (.object [(key, value)]) :=
  ⟨⟨formed, trivial⟩, List.pairwise_singleton _ _⟩

theorem state_formed (cwd : String) : WellFormed (state cwd) := by
  have assigned : WellFormed (assignment cwd) :=
    ⟨⟨trivial, trivial, trivial⟩, List.pairwise_pair.mpr (by simp only [String.reduceLT])⟩
  have roots : WellFormed (.array [.string "/a", .string "/b"]) := ⟨trivial, trivial, trivial⟩
  have projects := singleton_formed "p" _ (singleton_formed "rootPaths" _ roots)
  exact ⟨⟨projects, singleton_formed "t" _ assigned, trivial⟩, List.pairwise_pair.mpr (by simp only [String.reduceLT])⟩

def scanned : LocalSnapshot where
  schemaVersion := 1
  snapshotId := "s"
  createdAt := "2026-01-01T00:00:00Z"
  threads := [conversation]
  warningCount := 0

def env (cwd : String) : ProjectEnv where
  lib := sampleLib
  normalizePathForMatch path := path
  fileName _ := "project"
  display _ := "/project"
  cleanupReport _ := .ok []
  parseGlobalState _ := .ok ()
  removeCodexProjectPaths _ _ := .ok ⟨none, 0, 0⟩
  crossesDevices _ _ := false
  windows := false
  parse text := if text = bytes cwd then .ok (state cwd) else .error "expected value"
  parsed text value read := by
    by_cases same : text = bytes cwd
    · rw [if_pos same] at read
      cases read
      exact state_formed cwd
    · rw [if_neg same] at read
      cases read
  scanCodexHome _ := .ok scanned

def disk (cwd : String) : CleanupDisk where
  directories _ := none
  globalStates path := if path = globalStatePath "/codex" then some (bytes cwd) else none
  backups _ := none
  journals := ∅

def globalState (cwd : String) : CodexGlobalState := ⟨bytes cwd, state cwd, [⟨"p", "/a"⟩, ⟨"p", "/b"⟩]⟩

section Runs

variable (cwd : String)

theorem stored : (disk cwd).globalStates (globalStatePath "/codex") = some (bytes cwd) := by simp only [disk, if_true]

theorem loaded (short : (bytes cwd).length ≤ maxCodexGlobalStateBytes) :
    loadCodexGlobalState (env cwd) "/codex" (disk cwd) = .ok (some (globalState cwd)) := by
  have paths : projectPaths (env cwd).windows (state cwd) = .ok [⟨"p", "/a"⟩, ⟨"p", "/b"⟩] := rfl
  have parsed : (env cwd).parse (bytes cwd) = .ok (state cwd) := by simp only [env, if_true]
  rw [loadCodexGlobalState, stored]
  simp only [ensured _ _ _ short, parsed, Except.mapError, bind_ok, pure_ok]
  exact ⟨state cwd, rfl, _, paths, rfl⟩

theorem ran (short : (bytes cwd).length ≤ maxCodexGlobalStateBytes) (left : Value) (assignments : Nat)
    (removed : removeCodexProjectPaths selected (state cwd) = .ok (left, ⟨true, 0, assignments⟩)) :
    (removeEmptyCodexProjects (env cwd) "/codex").exec ⟨disk cwd, []⟩ =
      (.ok 0, ⟨(disk cwd).setGlobalState (globalStatePath "/codex") (some (utf8 (writeJson sampleLib left))), []⟩) := by
  have roots : emptyRoots [⟨"p", "/a"⟩, ⟨"p", "/b"⟩] ["/a"] = selected := by decide +kernel
  have replaced := quiet_replace (env cwd).toCleanupEnv (globalStatePath "/codex") (digestBytes sampleLib (bytes cwd))
    (utf8 (writeJson sampleLib left)) (disk cwd) (bytes cwd) (stored cwd) rfl
  have rewritten : (rewriteGlobalState (env cwd) "/codex" (globalState cwd) selected).exec ⟨disk cwd, []⟩ =
      (.ok 0, ⟨(disk cwd).setGlobalState (globalStatePath "/codex") (some (utf8 (writeJson sampleLib left))), []⟩) := by
    rw [rewriteGlobalState, globalState, removed]
    refine (Prog.exec_bind_ok _ _ _ _ _).mpr ⟨(left, ⟨true, 0, assignments⟩), ⟨disk cwd, []⟩, rfl, ?_⟩
    exact (Prog.exec_bind_ok _ _ _ _ _).mpr ⟨(), _, replaced, rfl⟩
  refine (Prog.exec_bind_ok _ _ _ _ _).mpr ⟨_, _, (quiet_inspect _ (disk cwd)).trans (by rw [loaded cwd short]), ?_⟩
  refine (Prog.exec_bind_ok _ _ _ _ _).mpr ⟨_, _, quiet_inspect _ (disk cwd), ?_⟩
  change (if (emptyRoots [⟨"p", "/a"⟩, ⟨"p", "/b"⟩] ["/a"]).isEmpty = true then _ else _ : CleanupAccess Nat).exec _ = _
  rw [roots]
  exact rewritten

end Runs

-- Where the recorded directory is in the root of the conversation.
theorem removed : removeCodexProjectPaths selected (state "/a") = .ok (repairedState [("t", assignment "/a")], ⟨true, 0, 0⟩) := rfl

theorem codex_projects_removed_sample :
    (∃ after result, removeCodexProjectPaths selected (state "/a") = .ok (after, result) ∧
      PathsRemoved selected (state "/a") after result) ∧
    SafeAccess (fun seen => seen = disk "/a" ∨ seen = (disk "/a").setGlobalState (globalStatePath "/codex") none ∨
        Replaced (env "/a") "/codex" (disk "/a") seen)
      (removeEmptyCodexProjects (env "/a") "/codex")
      (fun outcome seen => ∀ count, outcome = .ok count → seen.state = disk "/a" ∨
        Replaced (env "/a") "/codex" (disk "/a") seen.state)
      ⟨disk "/a", []⟩ ∧
    Settles (env "/a") "/codex" (disk "/a") (globalState "/a") scanned
      ((disk "/a").setGlobalState (globalStatePath "/codex")
        (some (utf8 (writeJson sampleLib (repairedState [("t", assignment "/a")]))))) := by
  have short : (bytes "/a").length ≤ maxCodexGlobalStateBytes := by decide +kernel
  obtain ⟨removal, accesses, settles⟩ := codex_projects_removed (env "/a") "/codex" (disk "/a") []
  exact ⟨⟨_, _, removed, (removal selected (state "/a") (state_formed "/a")).2 _ _ removed⟩, accesses,
    settles _ _ _ _ (loaded "/a" short) rfl (ran "/a" short _ _ removed)⟩

-- The repair drops the assignment of a scanned thread to a project that it keeps.
theorem assignment_dropped :
    (removeEmptyCodexProjects (env "/b") "/codex").exec ⟨disk "/b", []⟩ =
      (.ok 0, ⟨(disk "/b").setGlobalState (globalStatePath "/codex") (some (utf8 (writeJson sampleLib (repairedState [])))), []⟩) ∧
    (∃ entries, Rollout.get (state "/b") "thread-project-assignments" = some (.object entries) ∧
      (conversation.threadId, assignment "/b") ∈ entries) ∧
    projectOf (repairedState []) "p" ≠ none ∧ Rollout.get (repairedState []) "thread-project-assignments" = some (.object []) :=
  ⟨ran "/b" (by decide +kernel) _ 1 rfl, ⟨_, rfl, .head _⟩, nofun, rfl⟩

end ProjectSample

end SessionSync.Workspace
