import SessionSync.Checkout.ProjectAssignment
import SessionSync.Core.Sha256

set_option autoImplicit false

namespace SessionSync.Checkout

open SessionSync.Core Checked Rollout

variable (platform : Platform) (threads : List ThreadBundle) (workspaceProjectRoots : List String)

-- The thread is the last one of its id that a root covers.
def LastCovered (thread : ThreadBundle) : Prop :=
  ∃ earlier later, threads = earlier ++ thread :: later ∧ Covered platform threads workspaceProjectRoots thread ∧
    ∀ other ∈ later, other.threadId = thread.threadId → ¬ Covered platform threads workspaceProjectRoots other

def CoveredId (id : String) : Prop := ∃ thread ∈ threads, thread.threadId = id ∧ Covered platform threads workspaceProjectRoots thread

structure LongestRoot (cwd identity : String) : Prop where
  root : IsRoot platform threads workspaceProjectRoots identity
  covers : WorkspacePathMatches (rootIdentity platform cwd) identity
  longest : ∀ other, IsRoot platform threads workspaceProjectRoots other → WorkspacePathMatches (rootIdentity platform cwd) other →
    other.utf8ByteSize ≤ identity.utf8ByteSize

-- The project is one of the root, and every list of the state has it.
structure Listed (after : Fields) (identity projectId : String) : Prop where
  project : ∃ project, fieldOf (objectAt after "local-projects") projectId = some project ∧ hasRoot platform identity project = true
  ordered : .string projectId ∈ arrayAt after "project-order"
  saved : ∃ value ∈ arrayAt after "electron-saved-workspace-roots", listsRoot platform identity value = true

structure AssignedTo (after : Fields) (thread : ThreadBundle) (cwd identity projectId : String) : Prop where
  path : checkoutThreadWorkspacePath thread = some cwd
  root : LongestRoot platform threads workspaceProjectRoots cwd identity
  assigned : fieldOf (objectAt after "thread-project-assignments") thread.threadId =
    some (Assignment.toValue ⟨thread.threadId, nativeWorkspacePath platform cwd, projectId, identity⟩)
  listed : Listed platform after identity projectId
  projectless : .string thread.threadId ∉ arrayAt after "projectless-thread-ids"

def concernedKeys : List String :=
  ["local-projects", "project-order", "electron-saved-workspace-roots", "thread-project-assignments", "projectless-thread-ids"]

open scoped Classical in
structure Unconcerned (before after : Fields) : Prop where
  projects : ∀ id project, fieldOf (objectAt before "local-projects") id = some project →
    fieldOf (objectAt after "local-projects") id = some project
  added : ∀ id project, fieldOf (objectAt after "local-projects") id = some project →
    fieldOf (objectAt before "local-projects") id = some project ∨
    ∃ identity, IsRoot platform threads workspaceProjectRoots identity ∧ hasRoot platform identity project = true
  order : arrayAt before "project-order" <+: arrayAt after "project-order"
  saved : arrayAt before "electron-saved-workspace-roots" <+: arrayAt after "electron-saved-workspace-roots"
  assignments : ∀ id, ¬ CoveredId platform threads workspaceProjectRoots id →
    fieldOf (objectAt after "thread-project-assignments") id = fieldOf (objectAt before "thread-project-assignments") id
  projectless : arrayAt after "projectless-thread-ids" = (arrayAt before "projectless-thread-ids").filter fun value =>
    ∀ id, value = .string id → ¬ CoveredId platform threads workspaceProjectRoots id
  others : ∀ key, key ∉ concernedKeys → fieldOf after key = fieldOf before key

def OnePath : Prop := ∀ left ∈ threads, ∀ right ∈ threads, left.threadId = right.threadId →
  checkoutThreadWorkspacePath left = checkoutThreadWorkspacePath right

instance onePathDecidable : Decidable (OnePath threads) :=
  inferInstanceAs (Decidable (∀ left ∈ threads, ∀ right ∈ threads, left.threadId = right.threadId →
    checkoutThreadWorkspacePath left = checkoutThreadWorkspacePath right))

variable {platform threads workspaceProjectRoots}
variable {lib : Primitives} {now : Int64} {before : Fields}

variable (lib before) in
theorem assignment_member (id : String) :
    (∃ assignment ∈ assignmentsOf platform lib before threads workspaceProjectRoots, assignment.threadId = id) ↔
    CoveredId platform threads workspaceProjectRoots id := by
  constructor
  · rintro ⟨assignment, member, rfl⟩
    obtain ⟨thread, inside, assigned⟩ := List.mem_filterMap.mp member
    obtain ⟨cwd, root, _, _, shape⟩ := assignment_some platform lib before threads workspaceProjectRoots thread assignment assigned
    have covered := (assignment_covered platform lib before threads workspaceProjectRoots thread).mp ⟨_, assigned⟩
    exact ⟨thread, inside, by rw [shape], covered⟩
  · rintro ⟨thread, inside, rfl, covered⟩
    obtain ⟨assignment, assigned⟩ := (assignment_covered platform lib before threads workspaceProjectRoots thread).mpr covered
    obtain ⟨cwd, root, _, _, shape⟩ := assignment_some platform lib before threads workspaceProjectRoots thread assignment assigned
    exact ⟨assignment, List.mem_filterMap.mpr ⟨thread, inside, assigned⟩, by rw [shape]⟩

variable (lib before) in
theorem last_assignment (thread : ThreadBundle) (last : LastCovered platform threads workspaceProjectRoots thread) :
    ∃ assignment, assignmentOf platform (projectRoots platform lib before threads workspaceProjectRoots) thread = some assignment ∧
      lastOf (assignmentsOf platform lib before threads workspaceProjectRoots) thread.threadId = some assignment := by
  obtain ⟨earlier, later, split, covered, none⟩ := last
  obtain ⟨assignment, assigned⟩ := (assignment_covered platform lib before threads workspaceProjectRoots thread).mpr covered
  obtain ⟨_, _, _, _, shape⟩ := assignment_some platform lib before threads workspaceProjectRoots thread assignment assigned
  have own : assignment.threadId = thread.threadId := by rw [shape]
  have rest : ((later.filterMap (assignmentOf platform (projectRoots platform lib before threads workspaceProjectRoots))).filter
      fun assignment => assignment.threadId = thread.threadId) = [] := by
    refine List.filter_eq_nil_iff.mpr fun other member same => ?_
    obtain ⟨source, inside, gives⟩ := List.mem_filterMap.mp member
    obtain ⟨_, _, _, _, form⟩ := assignment_some platform lib before threads workspaceProjectRoots source other gives
    have same : other.threadId = thread.threadId := by simpa using same
    rw [form] at same
    exact none source inside same ((assignment_covered platform lib before threads workspaceProjectRoots source).mp ⟨_, gives⟩)
  have listed : assignmentsOf platform lib before threads workspaceProjectRoots =
      (earlier ++ thread :: later).filterMap
        (assignmentOf platform (projectRoots platform lib before threads workspaceProjectRoots)) := by
    rw [← split, assignmentsOf]
  refine ⟨assignment, assigned, ?_⟩
  rw [lastOf, listed, List.filterMap_append, List.filterMap_cons_some assigned, List.filter_append,
    List.filter_cons_of_pos (by simpa using own), rest]
  exact List.getLast?_append_of_ne_nil _ (List.cons_ne_nil _ _)

theorem still_projectless (id : String) :
    stillProjectless (assignmentsOf platform lib before threads workspaceProjectRoots) (.string id) = true ↔
      ¬ CoveredId platform threads workspaceProjectRoots id := by
  rw [← assignment_member lib before]
  simp [stillProjectless, Value.asStr]

section Applied

variable {documents : Documents} {projects fields : Fields}
variable (applied : Applied platform lib now before threads workspaceProjectRoots documents projects fields)

include applied

theorem applied_projects : objectAt fields "local-projects" = projects := object_at _ _ _ (applied_reads applied).projects

theorem applied_order : arrayAt fields "project-order" =
    (orderProjects (usedRoots platform lib before threads workspaceProjectRoots) documents.order).1 :=
      array_at _ _ _ (applied_reads applied).order

theorem applied_saved : arrayAt fields "electron-saved-workspace-roots" =
    (saveRoots platform (usedRoots platform lib before threads workspaceProjectRoots) documents.saved).1 :=
  array_at _ _ _ (applied_reads applied).saved

theorem applied_entries (id : String) : fieldOf (objectAt fields "thread-project-assignments") id =
    ((lastOf (assignmentsOf platform lib before threads workspaceProjectRoots) id).map Assignment.toValue).or
      (fieldOf (objectAt before "thread-project-assignments") id) := by
  rw [object_at _ _ _ (applied_reads applied).entries, object_at _ _ _ applied.reads.entries]
  exact assigned_lookup _ _ _

theorem applied_projectless : arrayAt fields "projectless-thread-ids" =
    (arrayAt before "projectless-thread-ids").filter
    (stillProjectless (assignmentsOf platform lib before threads workspaceProjectRoots)) := by
  rw [arrayAt, applied.result, stored_field, if_pos rfl, arrayAt]
  cases fieldOf before "projectless-thread-ids" with
  | none => rfl
  | some value =>
      cases value with
      | array values => rfl
      | _ => rfl

theorem used_listed (root : WorkspaceProjectRoot) (used : root ∈ usedRoots platform lib before threads workspaceProjectRoots) :
    Listed platform fields root.identity root.projectId := by
  refine ⟨applied_projects applied ▸ applied.added.present root used, ?_, ?_⟩
  · obtain ⟨value, member, named⟩ := List.any_eq_true.mp (ordered_projects.present root used)
    rw [applied_order applied]
    cases value with
    | string text =>
        have same : text = root.projectId := by simpa [isProjectId, Value.asStr] using named
        exact same ▸ member
    | _ => simp [isProjectId, Value.asStr] at named
  · rw [applied_saved applied]
    exact List.any_eq_true.mp (saved_roots.present root used)

theorem assigned_thread (thread : ThreadBundle) (last : LastCovered platform threads workspaceProjectRoots thread) :
    ∃ cwd identity projectId, AssignedTo platform threads workspaceProjectRoots fields thread cwd identity projectId := by
  obtain ⟨assignment, assigned, lastOne⟩ := last_assignment lib before thread last
  obtain ⟨earlier, later, split, covered, _⟩ := last
  have inside : thread ∈ threads := split ▸ List.mem_append_right _ List.mem_cons_self
  obtain ⟨cwd, root, path, longest, rfl⟩ :=
    assignment_some platform lib before threads workspaceProjectRoots thread assignment assigned
  have used : root ∈ usedRoots platform lib before threads workspaceProjectRoots :=
    List.mem_filter.mpr ⟨longest.member, by simpa using ⟨_, List.mem_filterMap.mpr ⟨thread, inside, assigned⟩, rfl⟩⟩
  refine ⟨cwd, root.identity, root.projectId, path, ⟨?_, longest.covers, fun other isRoot covers => ?_⟩, ?_,
    used_listed applied root used, ?_⟩
  · exact (project_root_identities platform lib before threads workspaceProjectRoots _).mp ⟨root, longest.member, rfl⟩
  · obtain ⟨next, member, rfl⟩ := (project_root_identities platform lib before threads workspaceProjectRoots other).mpr isRoot
    exact longest.longest next member covers
  · rw [applied_entries applied, lastOne, Option.map_some, Option.some_or]
  · rw [applied_projectless applied]
    intro member
    exact (still_projectless _).mp (List.mem_filter.mp member).2 ⟨thread, inside, rfl, covered⟩

theorem applied_unconcerned (sorted : KeysSorted documents.projects) :
    Unconcerned platform threads workspaceProjectRoots before fields := by
  have oldProjects : objectAt before "local-projects" = documents.projects := object_at _ _ _ applied.reads.projects
  refine ⟨fun id project here => ?_, fun id project here => ?_, ?_, ?_, fun id absent => ?_, ?_, fun key other => ?_⟩
  · rw [oldProjects] at here
    exact applied_projects applied ▸ applied.added.kept id project here
  · rw [applied_projects applied, field_iff _ (applied.added.sorted sorted)] at here
    rw [oldProjects, field_iff _ sorted]
    refine (applied.added.fresh _ here).imp_right fun ⟨root, used, same, _⟩ => ⟨root.identity, ?_, ?_⟩
    · exact (project_root_identities platform lib before threads workspaceProjectRoots _).mp ⟨root, (List.mem_filter.mp used).1, rfl⟩
    · rw [(Prod.mk.inj same).2]
      exact (new_project_root platform now root _).mpr
        (project_roots_described platform lib threads workspaceProjectRoots before root (List.mem_filter.mp used).1)
  · rw [applied_order applied, array_at _ _ _ applied.reads.order]
    exact ordered_projects.kept
  · rw [applied_saved applied, array_at _ _ _ applied.reads.saved]
    exact saved_roots.kept
  · have none : lastOf (assignmentsOf platform lib before threads workspaceProjectRoots) id = none := by
      rw [lastOf, List.getLast?_eq_none_iff, List.filter_eq_nil_iff]
      intro assignment member same
      exact absent (assignment_member lib before id |>.mp ⟨assignment, member, by simpa using same⟩)
    rw [applied_entries applied, none, Option.map_none, Option.none_or]
  · rw [applied_projectless applied]
    refine List.filter_congr fun value _ => ?_
    rw [Bool.eq_iff_iff]
    cases value with
    | string text => simp [still_projectless]
    | _ => simp [stillProjectless, Value.asStr]
  · simp only [concernedKeys, List.mem_cons, List.not_mem_nil, or_false, not_or] at other
    obtain ⟨first, second, third, fourth, fifth⟩ := other
    rw [applied.result, stored_field, if_neg fifth, if_neg fourth, if_neg third, if_neg second, if_neg first]

end Applied

-- Threads of one id that name one path are all assigned alike.
theorem one_path_same (onePath : OnePath threads) (left right : Assignment)
    (leftMember : left ∈ assignmentsOf platform lib before threads workspaceProjectRoots)
    (rightMember : right ∈ assignmentsOf platform lib before threads workspaceProjectRoots) (same : left.threadId = right.threadId) :
    left = right := by
  obtain ⟨first, firstMember, makesLeft⟩ := List.mem_filterMap.mp leftMember
  obtain ⟨second, secondMember, makesRight⟩ := List.mem_filterMap.mp rightMember
  obtain ⟨_, _, _, _, leftShape⟩ := assignment_some platform lib before threads workspaceProjectRoots first left makesLeft
  obtain ⟨_, _, _, _, rightShape⟩ := assignment_some platform lib before threads workspaceProjectRoots second right makesRight
  have ids : first.threadId = second.threadId := by
    rw [leftShape, rightShape] at same
    exact same
  have paths := onePath first firstMember second secondMember ids
  unfold assignmentOf at makesLeft makesRight
  rw [paths, ids] at makesLeft
  exact Option.some.inj (makesLeft.symm.trans makesRight)

theorem one_path_again (onePath : OnePath threads) (entries : Fields) :
    assignThreads (assignmentsOf platform lib before threads workspaceProjectRoots)
      (assignThreads (assignmentsOf platform lib before threads workspaceProjectRoots) entries).1 =
        ((assignThreads (assignmentsOf platform lib before threads workspaceProjectRoots) entries).1, false) := by
  refine assigned_again _ _ fun assignment member => ?_
  have own : assignment ∈ (assignmentsOf platform lib before threads workspaceProjectRoots).filter fun other =>
      other.threadId = assignment.threadId := List.mem_filter.mpr ⟨member, by simp⟩
  obtain ⟨last, found⟩ := Option.ne_none_iff_exists'.mp (mt List.getLast?_eq_none_iff.mp (List.ne_nil_of_mem own))
  obtain ⟨inside, same⟩ := List.mem_filter.mp (List.mem_of_getLast? found)
  rw [assigned_lookup, lastOf, found, one_path_same onePath last assignment inside member (by simpa using same), Option.map_some,
    Option.some_or]

theorem unassigned_unconcerned (none : assignmentsOf platform lib before threads workspaceProjectRoots = []) :
    Unconcerned platform threads workspaceProjectRoots before before := by
  have absent : ∀ id, ¬ CoveredId platform threads workspaceProjectRoots id := by
    intro id covered
    obtain ⟨assignment, member, _⟩ := (assignment_member lib before id).mpr covered
    rw [none] at member
    cases member
  refine ⟨fun _ _ here => here, fun _ _ here => .inl here, List.prefix_refl _, List.prefix_refl _, fun _ _ => rfl, ?_, fun _ _ => rfl⟩
  exact (List.filter_eq_self.mpr fun value _ => by simp [absent]).symm

theorem documents_sorted (documents : Documents) (reads : Reads before documents) (formed : WellFormed (.object before)) :
    KeysSorted documents.projects ∧ KeysSorted documents.entries := by
  have field : ∀ key fields, jsonObjectField before key = .ok fields → KeysSorted fields := by
    intro key fields read
    unfold jsonObjectField at read
    cases held : fieldOf before key with
    | none =>
        rw [held] at read
        cases read
        exact List.Pairwise.nil
    | some value =>
        rw [held] at read
        have inner := field_formed key value before formed.1 held
        have object := (found_ok _ _ _).mp read
        cases value with
        | object others =>
            cases object
            exact inner.2
        | _ => cases object
  exact ⟨field _ _ reads.projects, field _ _ reads.entries⟩

theorem project_assignment (platform : Platform) (lib : Primitives) (now : Int64) (state after : Value) (threads : List ThreadBundle)
    (workspaceProjectRoots : List String) (changed : Bool) (formed : WellFormed state)
    (run : applyProjectAssignments platform lib now state threads workspaceProjectRoots = .ok (after, changed)) :
    ∃ before fields, state = .object before ∧ after = .object fields ∧
      (∀ thread, LastCovered platform threads workspaceProjectRoots thread →
        ∃ cwd identity projectId, AssignedTo platform threads workspaceProjectRoots fields thread cwd identity projectId) ∧
      Unconcerned platform threads workspaceProjectRoots before fields ∧
      ∃ again, (∀ later, applyProjectAssignments platform lib later after threads workspaceProjectRoots = .ok (after, again)) ∧
        (OnePath threads → again = false) := by
  cases state with
  | object before =>
      rcases apply_cases platform lib now before threads workspaceProjectRoots after changed run with
        ⟨none, rfl, rfl⟩ | ⟨fields, documents, projects, rfl, applied⟩
      · refine ⟨before, before, rfl, rfl, fun thread last => ?_, unassigned_unconcerned none, false, fun later => ?_, fun _ => rfl⟩
        · obtain ⟨assignment, _, lastOne⟩ := last_assignment lib before thread last
          rw [none] at lastOne
          cases lastOne
        · exact (bind_ok _ _ _).mpr ⟨before, rfl, if_pos none⟩
      · obtain ⟨projectsSorted, entriesSorted⟩ := documents_sorted documents applied.reads formed
        refine ⟨before, fields, rfl, rfl, fun thread last => assigned_thread applied thread last,
          applied_unconcerned applied projectsSorted, _, fun later =>
            apply_again applied later formed.2 projectsSorted entriesSorted, fun onePath => ?_⟩
        rw [one_path_again onePath]
  | _ => cases run

section Sample

def unixPlatform : Platform := { windows := false, toLowercase := id, fileName := fun path => (path.splitOn "/").getLast? }

def threadAt (id path : String) : ThreadBundle :=
  { schemaVersion := 1, threadId := id, title := id, archived := false, createdAtMs := none,
    updatedAtMs := none, modelProvider := none
    workspace := ⟨none, some path⟩, rollout := ⟨"", 0, "", none, none, none⟩, relatedRecords := ⟨none, ∅⟩, attachments := [] }

def assignedProject (id : String) (result : Value × Bool) : Option String :=
  (((((asObject result.1).bind fun state => fieldOf state "thread-project-assignments").bind asObject).bind fun entries =>
    fieldOf entries id).bind fun entry => get entry "projectId").bind Value.asStr

def onUnix (state : Value) (threads : List ThreadBundle) (roots : List String) : Except String (Value × Bool) :=
  applyProjectAssignments unixPlatform sampleLib 0 state threads roots

def sampleThreads : List ThreadBundle := [threadAt "a" "/w/a", threadAt "b" "/w/a", threadAt "c" "/w/b"]

-- A state with two projects, one of which has the path of two threads, and with the
-- assignment of a thread that is not checked out.
def sampleState : Value := .object [
  ("electron-saved-workspace-roots", .array [.string "/other"]),
  ("local-projects", .object [
    ("local-kept", .object [("id", .string "local-kept"), ("rootPaths", .array [.string "/w/a"])]),
    ("local-other", .object [("id", .string "local-other"), ("rootPaths", .array [.string "/other"])])]),
  ("project-order", .array [.string "local-other"]),
  ("projectless-thread-ids", .array [.string "c", .string "z"]),
  ("thread-project-assignments", .object [
    ("a", .object [("cwd", .string "/other"), ("projectId", .string "local-other")]),
    ("y", .object [("cwd", .string "/other"), ("projectId", .string "local-other")])])]

theorem state_formed : WellFormed sampleState := by
  have project : ∀ id path, WellFormed (.object [("id", .string id), ("rootPaths", .array [.string path])]) := fun _ _ =>
    ⟨⟨trivial, ⟨trivial, trivial⟩, trivial⟩, List.pairwise_pair.mpr (by simp only [String.reduceLT])⟩
  have assigned : ∀ path id, WellFormed (.object [("cwd", .string path), ("projectId", .string id)]) := fun _ _ =>
    ⟨⟨trivial, trivial, trivial⟩, List.pairwise_pair.mpr (by simp only [String.reduceLT])⟩
  refine ⟨⟨⟨trivial, trivial⟩, ?_, ⟨trivial, trivial⟩, ⟨trivial, trivial, trivial⟩, ?_, trivial⟩, ?_⟩
  · exact ⟨⟨project _ _, project _ _, trivial⟩, List.pairwise_pair.mpr (by simp only [String.reduceLT])⟩
  · exact ⟨⟨assigned _ _, assigned _ _, trivial⟩, List.pairwise_pair.mpr (by simp only [String.reduceLT])⟩
  · simp only [List.pairwise_cons, List.mem_cons, List.not_mem_nil, forall_eq_or_imp, forall_eq, or_false,
      false_imp_iff, implies_true, List.Pairwise.nil, and_true, String.reduceLT]

theorem project_assignment_sample : ∃ before fields, sampleState = .object before ∧
    onUnix sampleState sampleThreads ["/w"] = .ok (.object fields, true) ∧
    (assignedProject "a" (.object fields, true) = some "local-kept" ∧
      assignedProject "y" (.object fields, true) = some "local-other") ∧
    Unconcerned unixPlatform sampleThreads ["/w"] before fields ∧
    ∀ later, applyProjectAssignments unixPlatform sampleLib later (.object fields) sampleThreads ["/w"] =
      .ok (.object fields, false) := by
  have ends : (onUnix sampleState sampleThreads ["/w"]).toOption.map (fun result =>
      (result.2, assignedProject "a" result, assignedProject "y" result)) = some (true, some "local-kept", some "local-other") := by
    decide +kernel
  have onePath : OnePath sampleThreads := by decide +kernel
  cases run : onUnix sampleState sampleThreads ["/w"] with
  | error message =>
      rw [run] at ends
      cases ends
  | ok result =>
      obtain ⟨after, changed⟩ := result
      obtain ⟨before, fields, same, rfl, _, unconcerned, again, second, unchanged⟩ :=
        project_assignment unixPlatform sampleLib 0 sampleState after sampleThreads ["/w"] changed state_formed run
      rw [run] at ends
      obtain ⟨rfl, first, other⟩ : changed = true ∧ assignedProject "a" (.object fields, changed) = some "local-kept" ∧
          assignedProject "y" (.object fields, changed) = some "local-other" := by
        simpa [Except.toOption] using ends
      exact ⟨before, fields, same, rfl, ⟨first, other⟩, unconcerned, fun later => unchanged onePath ▸ second later⟩

-- Two threads of one path are put in a project of that path, below the one root that was
-- given. Of two threads of one id the second counts, and each run writes both.
theorem shared_paths_and_ids :
    ((onUnix (.object []) [threadAt "a" "/w/a", threadAt "b" "/w/a"] ["/w"]).toOption.map (assignedProject "a") =
        some (some (projectIdOf sampleLib "/w/a")) ∧ projectIdOf sampleLib "/w/a" ≠ projectIdOf sampleLib "/w") ∧
      (onUnix (.object []) [threadAt "a" "/w/a", threadAt "a" "/w/b"] []).toOption.map (assignedProject "a") =
        some (some (projectIdOf sampleLib "/w/b")) ∧
      projectIdOf sampleLib "/w/a" ≠ projectIdOf sampleLib "/w/b" ∧
      ((onUnix (.object []) [threadAt "a" "/w/a", threadAt "a" "/w/b"] []).bind fun first =>
        onUnix first.1 [threadAt "a" "/w/a", threadAt "a" "/w/b"] []).toOption.map Prod.snd = some true := by
  refine ⟨⟨?_, ?_⟩, ?_, ?_, ?_⟩
  all_goals decide +kernel

end Sample

end SessionSync.Checkout
