import SessionSync.Checkout.ProjectsApplied

set_option autoImplicit false

namespace SessionSync.Checkout

open SessionSync.Core Checked Rollout

variable (platform : Platform)

theorem sorted_members (left right : Fields) (leftSorted : KeysSorted left) (rightSorted : KeysSorted right)
    (same : ∀ entry, entry ∈ left ↔ entry ∈ right) : left = right :=
  fields_ext _ _ leftSorted rightSorted fun name => Option.ext fun value => by
    rw [field_iff left leftSorted, field_iff right rightSorted, same]

section Again

variable (now : Int64) (distinct used : List WorkspaceProjectRoot) (projects after : Fields)

-- What is added for a root does not name another one.
theorem known_again (sorted : KeysSorted projects) (added : AddedProjects platform now used projects after)
    (apart : ∀ left ∈ distinct, ∀ right ∈ distinct, left.identity = right.identity → left = right)
    (among : ∀ root ∈ used, ∃ base ∈ distinct, root = withKnownProject platform projects base)
    (described : ∀ root ∈ used, workspacePathIdentity platform root.display = root.identity)
    (base : WorkspaceProjectRoot) (member : base ∈ distinct) :
    withKnownProject platform after base = withKnownProject platform projects base := by
  have sortedAfter := added.sorted sorted
  have own : ∀ root ∈ used, hasRoot platform base.identity (newProject platform now root) = true →
      root = withKnownProject platform projects base := by
    intro root inside lists
    obtain ⟨other, otherMember, rfl⟩ := among root inside
    have identity := (new_project_root platform now _ _).mp lists
    rw [described _ inside, (known_same platform projects other).1] at identity
    rw [apart other otherMember base member identity]
  cases known : projects.find? fun project => hasRoot platform base.identity project.2 with
  | some project =>
      have fixed : withKnownProject platform projects base = { base with projectId := project.1 } := by rw [withKnownProject, known]
      have held : fieldOf projects project.1 = some project.2 := (field_iff _ sorted _ _).mpr (List.mem_of_find?_eq_some known)
      have same : (after.filter fun project => hasRoot platform base.identity project.2) =
          projects.filter fun project => hasRoot platform base.identity project.2 := by
        refine sorted_members _ _ (filter_sorted _ _ sortedAfter) (filter_sorted _ _ sorted) fun entry => ?_
        rw [List.mem_filter, List.mem_filter]
        refine and_congr_left fun lists => ⟨fun inside => ?_, fun inside => ?_⟩
        · rcases added.fresh entry inside with old | ⟨root, rootUsed, rfl, absent⟩
          · exact old
          · rw [own root rootUsed lists, fixed, held] at absent
            cases absent
        · exact (field_iff _ sortedAfter _ _).mp (added.kept _ _ ((field_iff _ sorted _ _).mpr inside))
      rw [withKnownProject, withKnownProject, ← List.head?_filter, ← List.head?_filter, same]
  | none =>
      have fixed : withKnownProject platform projects base = base := by rw [withKnownProject, known]
      rw [fixed, withKnownProject]
      cases later : after.find? fun project => hasRoot platform base.identity project.2 with
      | none => rfl
      | some project =>
          have lists := List.find?_some later
          rcases added.fresh project (List.mem_of_find?_eq_some later) with old | ⟨root, rootUsed, rfl, _⟩
          · exact absurd lists (List.find?_eq_none.mp known project old)
          · rw [own root rootUsed lists, fixed]

end Again

section Second

variable (lib : Primitives) (threads : List ThreadBundle) (workspaceProjectRoots : List String)

theorem distinct_roots_same (left : WorkspaceProjectRoot)
    (leftMember : left ∈ distinctRoots platform lib threads workspaceProjectRoots) (right : WorkspaceProjectRoot)
    (rightMember : right ∈ distinctRoots platform lib threads workspaceProjectRoots) (same : left.identity = right.identity) :
    left = right := by
  have apart : ((distinctRoots platform lib threads workspaceProjectRoots).map WorkspaceProjectRoot.identity).Nodup :=
    List.pairwise_map.mpr (distinct_roots_apart platform lib threads workspaceProjectRoots)
  exact List.inj_on_of_nodup_map apart leftMember rightMember same

theorem project_roots_described (state : Fields) (root : WorkspaceProjectRoot)
    (member : root ∈ projectRoots platform lib state threads workspaceProjectRoots) :
    workspacePathIdentity platform root.display = root.identity := by
  obtain ⟨base, among, rfl⟩ := List.mem_map.mp member
  rw [(known_same platform _ base).1, (known_same platform _ base).2]
  exact (distinct_roots_described platform lib threads workspaceProjectRoots base among).1.identity

def objectAt (state : Fields) (key : String) : Fields := ((fieldOf state key).bind asObject).getD []

def arrayAt (state : Fields) (key : String) : List Value := ((fieldOf state key).bind asArray).getD []

theorem object_at (state : Fields) (key : String) (fields : Fields) (read : jsonObjectField state key = .ok fields) :
    objectAt state key = fields := by
  unfold jsonObjectField at read
  unfold objectAt
  cases held : fieldOf state key with
  | none =>
      rw [held] at read
      cases read
      rfl
  | some value =>
      rw [held] at read
      rw [Option.bind_some, (found_ok _ _ _).mp read, Option.getD_some]

theorem array_at (state : Fields) (key : String) (values : List Value) (read : jsonArrayField state key = .ok values) :
    arrayAt state key = values := by
  unfold jsonArrayField at read
  unfold arrayAt
  cases held : fieldOf state key with
  | none =>
      rw [held] at read
      cases read
      rfl
  | some value =>
      rw [held] at read
      rw [Option.bind_some, (found_ok _ _ _).mp read, Option.getD_some]

variable (documents : Documents) (assignments : List Assignment) (state : Fields)

-- What the state holds once the documents are stored and the assigned threads are dropped.
theorem stored_field (key : String) : fieldOf (dropProjectless assignments (documents.store state)).1 key =
    if key = "projectless-thread-ids" then (fieldOf state key).map (withoutAssigned assignments)
    else if key = "thread-project-assignments" then some (.object documents.entries)
    else if key = "electron-saved-workspace-roots" then some (.array documents.saved)
    else if key = "project-order" then some (.array documents.order)
    else if key = "local-projects" then some (.object documents.projects)
    else fieldOf state key := by
  simp only [drop_field, Documents.store, field_insert, eq_comm (b := key)]
  by_cases projectless : key = "projectless-thread-ids"
  · subst projectless
    simp
  · rw [if_neg projectless, if_neg projectless]

theorem stored_reads : Reads (dropProjectless assignments (documents.store state)).1 documents := by
  refine ⟨?_, ?_, ?_, ?_⟩
  · rw [jsonObjectField, stored_field]
    rfl
  · rw [jsonArrayField, stored_field]
    rfl
  · rw [jsonArrayField, stored_field]
    rfl
  · rw [jsonObjectField, stored_field]
    rfl

theorem store_sorted (sorted : KeysSorted state) : KeysSorted (documents.store state) :=
  insert_sorted _ _ _ (insert_sorted _ _ _ (insert_sorted _ _ _ (insert_sorted _ _ _ sorted)))

theorem store_again (sorted : KeysSorted state) : documents.store (dropProjectless assignments (documents.store state)).1 =
    (dropProjectless assignments (documents.store state)).1 := by
  have ordered := drop_sorted assignments _ (store_sorted documents state sorted)
  rw [Documents.store, insert_same "local-projects" _ _ ordered (by rw [stored_field]; rfl),
    insert_same "project-order" _ _ ordered (by rw [stored_field]; rfl),
    insert_same "electron-saved-workspace-roots" _ _ ordered (by rw [stored_field]; rfl),
    insert_same "thread-project-assignments" _ _ ordered (by rw [stored_field]; rfl)]

end Second

section Applied

variable (lib : Primitives) (now : Int64) (before : Fields) (threads : List ThreadBundle) (workspaceProjectRoots : List String)

def assignmentsOf : List Assignment :=
  threads.filterMap (assignmentOf platform (projectRoots platform lib before threads workspaceProjectRoots))

def usedRoots : List WorkspaceProjectRoot :=
  (projectRoots platform lib before threads workspaceProjectRoots).filter fun root =>
    ∃ assignment ∈ assignmentsOf platform lib before threads workspaceProjectRoots, assignment.identity = root.identity

-- What an application does to a state where it has a thread to assign.
structure Applied (documents : Documents) (projects : Fields) (after : Fields) : Prop where
  reads : Reads before documents
  added : AddedProjects platform now (usedRoots platform lib before threads workspaceProjectRoots) documents.projects projects
  result : after = (dropProjectless (assignmentsOf platform lib before threads workspaceProjectRoots)
    ((documents.assign platform projects (usedRoots platform lib before threads workspaceProjectRoots)
      (assignmentsOf platform lib before threads workspaceProjectRoots)).store before)).1

theorem apply_cases (after : Value) (changed : Bool)
    (run : applyProjectAssignments platform lib now (.object before) threads workspaceProjectRoots = .ok (after, changed)) :
    (assignmentsOf platform lib before threads workspaceProjectRoots = [] ∧ after = .object before ∧ changed = false) ∨
      ∃ fields documents projects, after = .object fields ∧
        Applied platform lib now before threads workspaceProjectRoots documents projects fields := by
  unfold applyProjectAssignments at run
  rw [asObject, bind_ok] at run
  obtain ⟨state, object, run⟩ := run
  cases object
  by_cases none : assignmentsOf platform lib before threads workspaceProjectRoots = []
  · rw [if_pos (by exact none), pure_ok] at run
    cases run
    exact .inl ⟨none, rfl, rfl⟩
  · rw [if_neg (by exact none), bind_ok] at run
    obtain ⟨⟨fields, more⟩, assigned, run⟩ := run
    rw [pure_ok] at run
    cases run
    obtain ⟨documents, projects, added, reads, adds, result, _⟩ := (assign_projects_ok platform now _ _ _ _ _).mp assigned
    refine .inr ⟨fields, documents, projects, rfl, reads, add_projects platform now _ _ _ _ (fun root used => ?_) adds, result⟩
    exact project_roots_described platform lib threads workspaceProjectRoots before root (List.mem_filter.mp used).1


variable {platform lib now before threads workspaceProjectRoots}
variable {documents : Documents} {projects fields : Fields}
variable (applied : Applied platform lib now before threads workspaceProjectRoots documents projects fields)

include applied

theorem applied_reads : Reads fields (documents.assign platform projects (usedRoots platform lib before threads workspaceProjectRoots)
    (assignmentsOf platform lib before threads workspaceProjectRoots)) :=
  applied.result ▸ stored_reads _ _ _

theorem roots_again (sorted : KeysSorted documents.projects) :
    projectRoots platform lib fields threads workspaceProjectRoots =
      projectRoots platform lib before threads workspaceProjectRoots := by
  have projectsBefore : objectAt before "local-projects" = documents.projects := object_at _ _ _ applied.reads.projects
  have projectsAfter : objectAt fields "local-projects" = projects := object_at _ _ _ (applied_reads applied).projects
  refine List.map_congr_left fun base member => ?_
  rw [← objectAt, ← objectAt, projectsBefore, projectsAfter]
  refine known_again platform now (distinctRoots platform lib threads workspaceProjectRoots) _ _ _ sorted applied.added
    (distinct_roots_same platform lib threads workspaceProjectRoots) (fun root used => ?_) (fun root used => ?_) base member
  · obtain ⟨other, among, same⟩ := List.mem_map.mp (List.mem_filter.mp used).1
    exact ⟨other, among, by rw [← same, ← objectAt, projectsBefore]⟩
  · exact project_roots_described platform lib threads workspaceProjectRoots before root (List.mem_filter.mp used).1

omit applied in
theorem ordered_projects :
    Pushed isProjectId (fun root => .string root.projectId) (usedRoots platform lib before threads workspaceProjectRoots)
    documents.order (orderProjects (usedRoots platform lib before threads workspaceProjectRoots) documents.order).1 :=
  push_missing _ _ _ (fun root _ => by simp [isProjectId, Value.asStr]) _

omit applied in
theorem saved_roots : Pushed (fun root => listsRoot platform root.identity) (fun root => .string root.display)
    (usedRoots platform lib before threads workspaceProjectRoots) documents.saved
    (saveRoots platform (usedRoots platform lib before threads workspaceProjectRoots) documents.saved).1 := by
  refine push_missing _ _ _ (fun root used => ?_) _
  have described := project_roots_described platform lib threads workspaceProjectRoots before root (List.mem_filter.mp used).1
  simp [listsRoot, Value.asStr, described]

omit applied in
theorem ordered_again : orderProjects (usedRoots platform lib before threads workspaceProjectRoots)
    (orderProjects (usedRoots platform lib before threads workspaceProjectRoots) documents.order).1 =
      ((orderProjects (usedRoots platform lib before threads workspaceProjectRoots) documents.order).1, false) :=
  push_again _ _ _ _ ordered_projects.present

omit applied in
theorem saved_again : saveRoots platform (usedRoots platform lib before threads workspaceProjectRoots)
    (saveRoots platform (usedRoots platform lib before threads workspaceProjectRoots) documents.saved).1 =
      ((saveRoots platform (usedRoots platform lib before threads workspaceProjectRoots) documents.saved).1, false) :=
  push_again _ _ _ _ saved_roots.present

omit applied in
theorem documents_again (sorted : KeysSorted documents.entries) :
    (documents.assign platform projects (usedRoots platform lib before threads workspaceProjectRoots)
        (assignmentsOf platform lib before threads workspaceProjectRoots)).assign platform projects
          (usedRoots platform lib before threads workspaceProjectRoots)
            (assignmentsOf platform lib before threads workspaceProjectRoots) =
      documents.assign platform projects (usedRoots platform lib before threads workspaceProjectRoots)
        (assignmentsOf platform lib before threads workspaceProjectRoots) := by
  simp only [Documents.assign, ordered_again, saved_again, assigned_twice _ _ sorted]

theorem apply_again (later : Int64) (sorted : KeysSorted before) (projectsSorted : KeysSorted documents.projects)
    (entriesSorted : KeysSorted documents.entries) :
    applyProjectAssignments platform lib later (.object fields) threads workspaceProjectRoots = .ok (.object fields,
      (assignThreads (assignmentsOf platform lib before threads workspaceProjectRoots)
        (assignThreads (assignmentsOf platform lib before threads workspaceProjectRoots) documents.entries).1).2) := by
  unfold applyProjectAssignments
  rw [asObject, present, roots_again applied projectsSorted]
  by_cases none : assignmentsOf platform lib before threads workspaceProjectRoots = []
  · rw [none, assignThreads]
    exact if_pos none
  · refine (if_neg none).trans ?_
    have same : (dropProjectless (assignmentsOf platform lib before threads workspaceProjectRoots)
        (((documents.assign platform projects (usedRoots platform lib before threads workspaceProjectRoots)
          (assignmentsOf platform lib before threads workspaceProjectRoots)).assign platform projects
            (usedRoots platform lib before threads workspaceProjectRoots)
            (assignmentsOf platform lib before threads workspaceProjectRoots)).store fields)) = (fields, false) := by
      rw [documents_again entriesSorted, applied.result, store_again _ _ _ sorted, drop_again _ _ (store_sorted _ _ sorted)]
    have assigned : assignProjects platform later fields (usedRoots platform lib before threads workspaceProjectRoots)
        (assignmentsOf platform lib before threads workspaceProjectRoots) = .ok (fields, (assignThreads
          (assignmentsOf platform lib before threads workspaceProjectRoots)
          (assignThreads (assignmentsOf platform lib before threads workspaceProjectRoots) documents.entries).1).2) := by
      refine (assign_projects_ok platform later _ _ _ _ _).mpr ⟨_, projects, false, applied_reads applied,
        add_projects_again platform later _ _ applied.added.present, by rw [same], ?_⟩
      rw [same]
      simp only [Documents.assign, ordered_again, saved_again, Bool.false_or, Bool.or_false]
    rw [bind_ok]
    exact ⟨_, assigned, rfl⟩

end Applied

end SessionSync.Checkout
