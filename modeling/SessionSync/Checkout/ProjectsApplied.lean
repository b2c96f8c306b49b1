import SessionSync.Checkout.ProjectRoots

set_option autoImplicit false

namespace SessionSync.Checkout

open SessionSync.Core Checked Rollout

variable (platform : Platform)

theorem insert_same (key : String) (value : Value) (fields : Fields) (sorted : KeysSorted fields)
    (here : fieldOf fields key = some value) :
    insertField key value fields = fields := by
  refine fields_ext _ _ (insert_sorted _ _ _ sorted) sorted fun name => ?_
  rw [field_insert]
  by_cases same : key = name
  · rw [if_pos same, ← here, same]
  · rw [if_neg same]

section Projects

variable (now : Int64)

theorem new_project_root (root : WorkspaceProjectRoot) (identity : String) :
    hasRoot platform identity (newProject platform now root) = true ↔ workspacePathIdentity platform root.display = identity := by
  simp [hasRoot, newProject, Rollout.get, fieldOf, asArray, listsRoot, Value.asStr]

structure AddedProjects (used : List WorkspaceProjectRoot) (projects after : Fields) : Prop where
  kept : ∀ id project, fieldOf projects id = some project → fieldOf after id = some project
  present : ∀ root ∈ used, ∃ project, fieldOf after root.projectId = some project ∧ hasRoot platform root.identity project = true
  fresh : ∀ entry ∈ after, entry ∈ projects ∨
    ∃ root ∈ used, entry = (root.projectId, newProject platform now root) ∧ fieldOf projects root.projectId = none
  sorted : KeysSorted projects → KeysSorted after

theorem add_projects (used : List WorkspaceProjectRoot) (projects after : Fields) (changed : Bool)
    (described : ∀ root ∈ used, workspacePathIdentity platform root.display = root.identity)
    (run : addProjects platform now used projects = .ok (after, changed)) : AddedProjects platform now used projects after := by
  induction used generalizing projects changed with
  | nil =>
      cases run
      exact ⟨fun _ _ here => here, List.forall_mem_nil _, fun _ member => .inl member, id⟩
  | cons root rest ih =>
      obtain ⟨first, others⟩ := List.forall_mem_cons.mp described
      rw [addProjects] at run
      cases known : fieldOf projects root.projectId with
      | some existing =>
          simp only [known, bind_ok, ensure_ok] at run
          obtain ⟨_, rooted, run⟩ := run
          have later := ih projects changed others run
          refine ⟨later.kept, List.forall_mem_cons.mpr ⟨⟨existing, later.kept _ _ known, rooted⟩, later.present⟩,
            fun entry member => ?_, later.sorted⟩
          exact (later.fresh entry member).imp_right fun ⟨other, among, facts⟩ => ⟨other, List.mem_cons_of_mem _ among, facts⟩
      | none =>
          simp only [known, bind_ok, pure_ok] at run
          obtain ⟨⟨left, more⟩, run, same⟩ := run
          obtain ⟨rfl, rfl⟩ := Prod.mk.inj same
          have later := ih _ more others run
          have made : fieldOf (insertField root.projectId (newProject platform now root) projects) root.projectId =
              some (newProject platform now root) := by rw [field_insert, if_pos rfl]
          have others : ∀ id, root.projectId ≠ id →
              fieldOf (insertField root.projectId (newProject platform now root) projects) id = fieldOf projects id :=
            fun id apart => by rw [field_insert, if_neg apart]
          refine ⟨fun id project here => ?_, List.forall_mem_cons.mpr ⟨⟨_, later.kept _ _ made, ?_⟩, later.present⟩,
            fun entry member => ?_, fun sorted => later.sorted (insert_sorted _ _ _ sorted)⟩
          · have apart : root.projectId ≠ id := by
              rintro rfl
              rw [known] at here
              cases here
            exact later.kept id project ((others id apart).trans here)
          · exact (new_project_root platform now root root.identity).mpr first
          · rcases later.fresh entry member with inside | ⟨other, among, shape, absent⟩
            · rcases insert_member _ _ _ _ inside with fresh | old
              · exact .inr ⟨root, List.mem_cons_self, fresh, known⟩
              · exact .inl old
            · have apart : root.projectId ≠ other.projectId := by
                intro same
                rw [← same, made] at absent
                cases absent
              exact .inr ⟨other, List.mem_cons_of_mem _ among, shape, (others _ apart).symm.trans absent⟩

theorem add_projects_again (used : List WorkspaceProjectRoot) (projects : Fields)
    (present : ∀ root ∈ used, ∃ project, fieldOf projects root.projectId = some project ∧
      hasRoot platform root.identity project = true) :
    addProjects platform now used projects = .ok (projects, false) := by
  induction used with
  | nil => rfl
  | cons root rest ih =>
      obtain ⟨⟨project, known, rooted⟩, others⟩ := List.forall_mem_cons.mp present
      rw [addProjects]
      simp only [known]
      rw [ensured _ _ _ rooted]
      exact ih others

end Projects

section Lists

variable (names : WorkspaceProjectRoot → Value → Bool) (entry : WorkspaceProjectRoot → Value)

structure Pushed (used : List WorkspaceProjectRoot) (values after : List Value) : Prop where
  kept : values <+: after
  present : ∀ root ∈ used, after.any (names root) = true
  fresh : ∀ value ∈ after, value ∈ values ∨ ∃ root ∈ used, value = entry root

theorem push_missing (used : List WorkspaceProjectRoot) (named : ∀ root ∈ used, names root (entry root) = true)
    (values : List Value) :
    Pushed names entry used values (pushMissing names entry used values).1 := by
  induction used generalizing values with
  | nil => exact ⟨List.prefix_refl values, List.forall_mem_nil _, fun _ member => .inl member⟩
  | cons root rest ih =>
      obtain ⟨first, others⟩ := List.forall_mem_cons.mp named
      rw [pushMissing]
      by_cases listed : values.any (names root) = true
      · rw [if_pos listed]
        have later := ih others values
        refine ⟨later.kept, List.forall_mem_cons.mpr ⟨?_, later.present⟩, fun value member => ?_⟩
        · obtain ⟨value, among, holds⟩ := List.any_eq_true.mp listed
          exact List.any_eq_true.mpr ⟨value, later.kept.subset among, holds⟩
        · exact (later.fresh value member).imp_right fun ⟨other, among, facts⟩ => ⟨other, List.mem_cons_of_mem _ among, facts⟩
      · rw [if_neg listed]
        have later := ih others (values ++ [entry root])
        have last : entry root ∈ values ++ [entry root] := List.mem_append_right _ (List.mem_singleton_self _)
        refine ⟨(List.prefix_append _ _).trans later.kept, List.forall_mem_cons.mpr ⟨?_, later.present⟩, fun value member => ?_⟩
        · exact List.any_eq_true.mpr ⟨entry root, later.kept.subset last, first⟩
        · rcases later.fresh value member with inside | ⟨other, among, facts⟩
          · exact (List.mem_append.mp inside).imp_right fun same => ⟨root, List.mem_cons_self, List.mem_singleton.mp same⟩
          · exact .inr ⟨other, List.mem_cons_of_mem _ among, facts⟩

theorem push_again (used : List WorkspaceProjectRoot) (values : List Value)
    (present : ∀ root ∈ used, values.any (names root) = true) :
    pushMissing names entry used values = (values, false) := by
  induction used with
  | nil => rfl
  | cons root rest ih =>
      obtain ⟨first, others⟩ := List.forall_mem_cons.mp present
      rw [pushMissing, if_pos first, ih others]

end Lists

section Threads

theorem is_assignment (assignment : Assignment) (value : Value) : assignment.is value = true ↔ value = assignment.toValue := by
  unfold Assignment.is Assignment.toValue
  split
  · simp
    tauto
  · rename_i other
    refine iff_of_false Bool.false_ne_true fun same => ?_
    exact other _ _ _ _ _ _ _ _ same

def lastOf (assignments : List Assignment) (id : String) : Option Assignment :=
  (assignments.filter fun assignment => assignment.threadId = id).getLast?

theorem assigned_lookup (assignments : List Assignment) (entries : Fields) (id : String) :
    fieldOf (assignThreads assignments entries).1 id = ((lastOf assignments id).map Assignment.toValue).or (fieldOf entries id) := by
  induction assignments generalizing entries with
  | nil => rfl
  | cons assignment rest ih =>
      have step : ∀ later : Option Value, (((lastOf rest id).map Assignment.toValue).or
          (if assignment.threadId = id then some assignment.toValue else later)) =
          ((lastOf (assignment :: rest) id).map Assignment.toValue).or later := by
        intro later
        unfold lastOf
        by_cases same : assignment.threadId = id
        · rw [if_pos same, List.filter_cons_of_pos (by simpa using same)]
          cases shape : rest.filter fun assignment => assignment.threadId = id with
          | nil => simp
          | cons next more => simp [List.getLast?_cons]
        · rw [if_neg same, List.filter_cons_of_neg (by simpa using same)]
      rw [assignThreads]
      by_cases known : (fieldOf entries assignment.threadId).any assignment.is = true
      · rw [if_pos known, ih, ← step]
        obtain ⟨value, here, same⟩ := (Option.any_eq_true _ _).mp known
        rw [is_assignment] at same
        by_cases own : assignment.threadId = id
        · rw [if_pos own, ← own, here, same]
        · rw [if_neg own]
      · rw [if_neg known, ih, ← step, field_insert]

theorem assigned_sorted (assignments : List Assignment) (entries : Fields) (sorted : KeysSorted entries) :
    KeysSorted (assignThreads assignments entries).1 := by
  induction assignments generalizing entries with
  | nil => exact sorted
  | cons assignment rest ih =>
      rw [assignThreads]
      by_cases known : (fieldOf entries assignment.threadId).any assignment.is = true
      · rw [if_pos known]
        exact ih entries sorted
      · rw [if_neg known]
        exact ih _ (insert_sorted _ _ _ sorted)

theorem assigned_again (assignments : List Assignment) (entries : Fields)
    (present : ∀ assignment ∈ assignments, fieldOf entries assignment.threadId = some assignment.toValue) :
    assignThreads assignments entries = (entries, false) := by
  induction assignments with
  | nil => rfl
  | cons assignment rest ih =>
      obtain ⟨first, others⟩ := List.forall_mem_cons.mp present
      rw [assignThreads, if_pos, ih others]
      rw [first, Option.any_some]
      exact (is_assignment _ _).mpr rfl

-- Assigning once more writes every entry back as it is.
theorem assigned_twice (assignments : List Assignment) (entries : Fields) (sorted : KeysSorted entries) :
    (assignThreads assignments (assignThreads assignments entries).1).1 = (assignThreads assignments entries).1 := by
  refine fields_ext _ _ (assigned_sorted _ _ (assigned_sorted _ _ sorted)) (assigned_sorted _ _ sorted) fun id => ?_
  rw [assigned_lookup, assigned_lookup]
  cases lastOf assignments id with
  | none => rfl
  | some assignment => rfl

end Threads

section Projectless

variable (assignments : List Assignment)

def withoutAssigned : Value → Value
  | .array values => .array (values.filter (stillProjectless assignments))
  | other => other

theorem without_assigned_twice (value : Value) :
    withoutAssigned assignments (withoutAssigned assignments value) = withoutAssigned assignments value := by
  cases value with
  | array values => simp [withoutAssigned]
  | _ => rfl

theorem drop_field (state : Fields) (key : String) : fieldOf (dropProjectless assignments state).1 key =
    if key = "projectless-thread-ids" then (fieldOf state key).map (withoutAssigned assignments) else fieldOf state key := by
  unfold dropProjectless
  cases held : fieldOf state "projectless-thread-ids" with
  | none =>
      by_cases same : key = "projectless-thread-ids"
      · simp [same, held]
      · simp [same]
  | some value =>
      cases value with
      | array values =>
          simp only [Option.bind_some, asArray, field_insert, eq_comm (b := key)]
          by_cases same : key = "projectless-thread-ids"
          · simp [same, held, withoutAssigned]
          · simp [same]
      | _ =>
          by_cases same : key = "projectless-thread-ids"
          · simp [same, held, withoutAssigned, asArray]
          · simp [same, asArray]

theorem drop_sorted (state : Fields) (sorted : KeysSorted state) : KeysSorted (dropProjectless assignments state).1 := by
  unfold dropProjectless
  cases (fieldOf state "projectless-thread-ids").bind asArray with
  | none => exact sorted
  | some values => exact insert_sorted _ _ _ sorted

theorem drop_again (state : Fields) (sorted : KeysSorted state) :
    dropProjectless assignments (dropProjectless assignments state).1 = ((dropProjectless assignments state).1, false) := by
  have sortedAfter := drop_sorted assignments state sorted
  refine Prod.ext (fields_ext _ _ (drop_sorted _ _ sortedAfter) sortedAfter fun key => ?_) ?_
  · rw [drop_field, drop_field]
    by_cases same : key = "projectless-thread-ids"
    · rw [if_pos same, if_pos same, Option.map_map]
      exact congrArg (fun change => (fieldOf state key).map change) (funext (without_assigned_twice assignments))
    · rw [if_neg same, if_neg same]
  · have held := drop_field assignments state "projectless-thread-ids"
    rw [if_pos rfl] at held
    rw [dropProjectless, held]
    cases fieldOf state "projectless-thread-ids" with
    | none => rfl
    | some value =>
        cases value with
        | array values => simp [withoutAssigned, asArray]
        | _ => rfl

end Projectless

section Documents

-- What the state holds of projects and of the threads assigned to them.
structure Documents where
  projects : Fields
  order : List Value
  saved : List Value
  entries : Fields

structure Reads (state : Fields) (documents : Documents) : Prop where
  projects : jsonObjectField state "local-projects" = .ok documents.projects
  order : jsonArrayField state "project-order" = .ok documents.order
  saved : jsonArrayField state "electron-saved-workspace-roots" = .ok documents.saved
  entries : jsonObjectField state "thread-project-assignments" = .ok documents.entries

def Documents.store (documents : Documents) (state : Fields) : Fields :=
  insertField "thread-project-assignments" (.object documents.entries)
    (insertField "electron-saved-workspace-roots" (.array documents.saved)
      (insertField "project-order" (.array documents.order) (insertField "local-projects" (.object documents.projects) state)))

def Documents.assign (documents : Documents) (projects : Fields) (used : List WorkspaceProjectRoot)
    (assignments : List Assignment) : Documents :=
  { projects := projects, order := (orderProjects used documents.order).1, saved := (saveRoots platform used documents.saved).1,
    entries := (assignThreads assignments documents.entries).1 }

theorem object_field (state : Fields) (key other : String) (value : Value) (apart : other ≠ key) :
    jsonObjectField (insertField other value state) key = jsonObjectField state key := by
  rw [jsonObjectField, field_insert, if_neg apart, jsonObjectField]

theorem array_field (state : Fields) (key other : String) (value : Value) (apart : other ≠ key) :
    jsonArrayField (insertField other value state) key = jsonArrayField state key := by
  rw [jsonArrayField, field_insert, if_neg apart, jsonArrayField]

theorem assign_projects_ok (now : Int64) (state after : Fields) (used : List WorkspaceProjectRoot) (assignments : List Assignment)
    (changed : Bool) :
    assignProjects platform now state used assignments = .ok (after, changed) ↔
      ∃ documents projects added, Reads state documents ∧ addProjects platform now used documents.projects = .ok (projects, added) ∧
        after = (dropProjectless assignments ((documents.assign platform projects used assignments).store state)).1 ∧
        changed = (added || (orderProjects used documents.order).2 || (saveRoots platform used documents.saved).2 ||
          (assignThreads assignments documents.entries).2 ||
          (dropProjectless assignments ((documents.assign platform projects used assignments).store state)).2) := by
  simp only [assignProjects, bind_ok, pure_ok, Prod.exists, Prod.mk.injEq]
  constructor
  · rintro ⟨projects, readProjects, projects', added, adds, order, readOrder, saved, readSaved, entries, readEntries, rfl, rfl⟩
    rw [array_field _ _ _ _ (by decide)] at readOrder
    rw [array_field _ _ _ _ (by decide), array_field _ _ _ _ (by decide)] at readSaved
    rw [object_field _ _ _ _ (by decide), object_field _ _ _ _ (by decide), object_field _ _ _ _ (by decide)] at readEntries
    exact ⟨⟨projects, order, saved, entries⟩, projects', added, ⟨readProjects, readOrder, readSaved, readEntries⟩, adds, rfl, rfl⟩
  · rintro ⟨documents, projects, added, reads, adds, rfl, rfl⟩
    refine ⟨documents.projects, reads.projects, projects, added, adds, documents.order, ?_, documents.saved, ?_,
      documents.entries, ?_, rfl, rfl⟩
    · rw [array_field _ _ _ _ (by decide), reads.order]
    · rw [array_field _ _ _ _ (by decide), array_field _ _ _ _ (by decide), reads.saved]
    · rw [object_field _ _ _ _ (by decide), object_field _ _ _ _ (by decide), object_field _ _ _ _ (by decide), reads.entries]

end Documents

end SessionSync.Checkout
