import SessionSync.Core.ThreeWay

set_option autoImplicit false

namespace SessionSync.Core

inductive ChangeKind where
  | added
  | modified
  | archiveChanged
  | deleted
  | unchanged
deriving DecidableEq, Repr

structure ChangeCandidate where
  threadId : String
  kind : ChangeKind
  archived : Option Bool
  localThread : Option ThreadBundle
  baseline : Option ThreadBundle
  localFingerprint : Option String
  baselineFingerprint : Option String

structure ChangePlan where
  baseRevisionId : Option String
  candidates : List ChangeCandidate

structure StagedChangeSet where
  baseRevisionId : Option String
  selectedThreadIds : Std.ExtTreeSet String

def ChangePlan.changed (plan : ChangePlan) : List ChangeCandidate :=
  plan.candidates.filter fun candidate => candidate.kind ≠ .unchanged

def ChangePlan.candidate (plan : ChangePlan) (threadId : String) : Option ChangeCandidate :=
  Keyed.find ChangeCandidate.threadId plan.candidates threadId

def stagedThreadMap (threads : List ThreadBundle) (label : String) : Except String (Std.ExtTreeMap String ThreadBundle) :=
  Keyed.collect ThreadBundle.threadId
    (fun thread => if isBlank thread.threadId then .error (label ++ " contains an empty thread ID") else .ok ())
    (fun thread => label ++ " contains duplicate thread ID " ++ thread.threadId) threads ∅

def archiveIndependentFingerprint (lib : Primitives) (thread : ThreadBundle) : String :=
  semanticThreadHash lib { thread with archived := false }

-- The last case is unreachable!() in the source: an id comes from one of the maps.
def changeKind (lib : Primitives) : Option ThreadBundle → Option ThreadBundle → ChangeKind × Option Bool
  | none, some _ => (.added, none)
  | some _, none => (.deleted, none)
  | some base, some loc =>
      if semanticThreadHash lib loc = semanticThreadHash lib base then (.unchanged, none)
      else if archiveIndependentFingerprint lib base = archiveIndependentFingerprint lib loc then
        (.archiveChanged, some loc.archived)
      else (.modified, none)
  | none, none => (.unchanged, none)

def changeCandidate (lib : Primitives) (threadId : String) (base loc : Option ThreadBundle) : ChangeCandidate where
  threadId := threadId
  kind := (changeKind lib base loc).1
  archived := (changeKind lib base loc).2
  localThread := loc
  baseline := base
  localFingerprint := loc.map (semanticThreadHash lib)
  baselineFingerprint := base.map (semanticThreadHash lib)

def buildChangePlan (lib : Primitives) (baseRevisionId : Option String) (baseline workspace : List ThreadBundle) :
    Except String ChangePlan := do
  let baseline ← stagedThreadMap baseline "baseline"
  let workspace ← stagedThreadMap workspace "workspace"
  let ids := Keyed.sortedKeys (baseline.keys ++ workspace.keys)
  return { baseRevisionId := baseRevisionId, candidates := ids.map fun id => changeCandidate lib id baseline[id]? workspace[id]? }

def selectLoop (plan : ChangePlan) : List String → Except String Unit
  | [] => .ok ()
  | id :: rest =>
      match plan.candidate id with
      | none => .error ("selected thread is not in the change plan: " ++ id)
      | some candidate =>
          if candidate.kind = .unchanged then .error ("unchanged thread cannot be staged: " ++ id) else selectLoop plan rest

def StagedChangeSet.fromSelected (plan : ChangePlan) (selected : List String) : Except String StagedChangeSet := do
  let selectedThreadIds := Std.ExtTreeSet.ofList selected
  selectLoop plan selectedThreadIds.toList
  return { baseRevisionId := plan.baseRevisionId, selectedThreadIds := selectedThreadIds }

def composeLoop (plan : ChangePlan) : List String → Std.ExtTreeMap String ThreadBundle →
    Except String (Std.ExtTreeMap String ThreadBundle)
  | [], result => .ok result
  | id :: rest, result =>
      match plan.candidate id with
      | none => .error ("staged thread is not in the change plan: " ++ id)
      | some candidate =>
          match candidate.kind with
          | .deleted => composeLoop plan rest (result.erase id)
          | .added | .modified | .archiveChanged =>
              match candidate.localThread with
              | none => .error ("staged local thread is missing: " ++ id)
              | some thread => composeLoop plan rest (result.insert id thread)
          | .unchanged => .error ("unchanged thread cannot be staged: " ++ id)

def composeStagedThreadSet (remote : List ThreadBundle) (plan : ChangePlan) (staged : StagedChangeSet) :
    Except String (List ThreadBundle) := do
  if staged.baseRevisionId ≠ plan.baseRevisionId then
    throw "staged change set was created from a different baseline"
  let result ← stagedThreadMap remote "remote"
  let result ← composeLoop plan staged.selectedThreadIds.toList result
  return Keyed.values result

-- What thread_map of the staging module accepts.
def Listed (threads : List ThreadBundle) : Prop :=
  (∀ thread ∈ threads, isBlank thread.threadId = false) ∧ (threadIds threads).Nodup

def changedIds (plan : ChangePlan) : List String := plan.changed.map ChangeCandidate.threadId

theorem staged_thread_map_ok_iff (threads : List ThreadBundle) (label : String) :
    (∃ map, stagedThreadMap threads label = .ok map) ↔ Listed threads := by
  rw [stagedThreadMap, Keyed.collect_ok_iff]
  refine and_congr_left fun _ => forall₂_congr fun thread _ => ?_
  cases isBlank thread.threadId <;> simp

theorem staged_thread_map_lookup (threads : List ThreadBundle) (label : String) (map : Std.ExtTreeMap String ThreadBundle)
    (read : stagedThreadMap threads label = .ok map) (id : String) : map[id]? = version threads id :=
  Keyed.collect_lookup _ _ _ threads map read id

-- build_change_plan read off the two lists.
def changePlan (lib : Primitives) (baseRevisionId : Option String) (baseline workspace : List ThreadBundle) : ChangePlan where
  baseRevisionId := baseRevisionId
  candidates := (Keyed.sortedKeys (threadIds baseline ++ threadIds workspace)).map fun id =>
    changeCandidate lib id (version baseline id) (version workspace id)

theorem build_change_plan_cases (lib : Primitives) (baseRevisionId : Option String) (baseline workspace : List ThreadBundle) :
    match buildChangePlan lib baseRevisionId baseline workspace with
    | .error _ => ¬ (Listed baseline ∧ Listed workspace)
    | .ok plan => (Listed baseline ∧ Listed workspace) ∧ plan = changePlan lib baseRevisionId baseline workspace := by
  have listedBaseline := staged_thread_map_ok_iff baseline "baseline"
  have listedWorkspace := staged_thread_map_ok_iff workspace "workspace"
  cases readBaseline : stagedThreadMap baseline "baseline" with
  | error message =>
      rw [readBaseline] at listedBaseline
      simp only [buildChangePlan, readBaseline, bind, Except.bind, ← listedBaseline]
      rintro ⟨⟨_, impossible⟩, _⟩
      cases impossible
  | ok baselineMap =>
      cases readWorkspace : stagedThreadMap workspace "workspace" with
      | error message =>
          rw [readWorkspace] at listedWorkspace
          simp only [buildChangePlan, readBaseline, readWorkspace, bind, Except.bind, ← listedWorkspace]
          rintro ⟨_, ⟨_, impossible⟩⟩
          cases impossible
      | ok workspaceMap =>
          have baselineAt := staged_thread_map_lookup baseline "baseline" baselineMap readBaseline
          have workspaceAt := staged_thread_map_lookup workspace "workspace" workspaceMap readWorkspace
          have ids : Keyed.sortedKeys (baselineMap.keys ++ workspaceMap.keys) =
              Keyed.sortedKeys (threadIds baseline ++ threadIds workspace) := by
            refine Keyed.sorted_keys_congr _ _ fun id => ?_
            simp only [List.mem_append, lookup_keys baseline baselineMap baselineAt, lookup_keys workspace workspaceMap workspaceAt]
          simp only [buildChangePlan, readBaseline, readWorkspace, bind, Except.bind, pure, Except.pure, ids, baselineAt, workspaceAt]
          exact ⟨⟨listedBaseline.mp ⟨_, readBaseline⟩, listedWorkspace.mp ⟨_, readWorkspace⟩⟩, rfl⟩

end SessionSync.Core
