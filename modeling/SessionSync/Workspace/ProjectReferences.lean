import SessionSync.Workspace.ProjectsRemoved

set_option autoImplicit false

namespace SessionSync.Workspace

open SessionSync.Core Checked Local Config Rollout

section Steps

-- One step at its field: what is there after it, whether it says so, and that the same
-- step of a second call has nothing to do.
theorem outcome_exact (step again : FieldStep Pruned) (expected : Value → Option Value) (exact_ : Exact step.run again.run expected)
    (before after : Option Value) (own : List Pruned) (formed : ∀ value, before = some value → WellFormed value)
    (outcome : step.outcome before = .ok (after, own)) :
    after = before.bind expected ∧ (own.any Pruned.changed = true ↔ after ≠ before) ∧
      ∃ later, again.outcome after = .ok (after, later) ∧ ∀ note ∈ later, note = {} := by
  cases before with
  | none =>
      cases outcome
      exact ⟨rfl, iff_of_false nofun fun differs => differs rfl, [], rfl, nofun⟩
  | some value =>
      simp only [FieldStep.outcome, bind_ok, pure_ok, Prod.exists, Prod.mk.injEq] at outcome
      obtain ⟨changed, note, ran, rfl, rfl⟩ := outcome
      have valued := formed value rfl
      refine ⟨exact_.value value changed note valued ran, ?_, ?_⟩
      · rw [List.any_cons, List.any_nil, Bool.or_false]
        exact exact_.changed value changed note valued ran
      · cases changed with
        | none => exact ⟨[], rfl, nofun⟩
        | some after =>
            refine ⟨[{}], ?_, fun note member => List.mem_singleton.mp member⟩
            rw [FieldStep.outcome, exact_.settled value after note valued ran]
            rfl

-- Two lists of steps at the same fields, each exact for its counterpart.
abbrev ExactSteps (steps again : List (FieldStep Pruned)) : Prop :=
  List.Forall₂ (fun step other => other.key = step.key ∧ ∃ expected, Exact step.run other.run expected) steps again

variable (steps again : List (FieldStep Pruned)) (pairs : ExactSteps steps again) (apart : (steps.map FieldStep.key).Nodup)
  (fields after : Fields) (notes : List Pruned) (formed : WellFormed (.object fields))
    (ran : runSteps steps fields = .ok (after, notes))

include formed in
theorem field_formed (key : String) (value : Value) (held : fieldOf fields key = some value) : WellFormed value := by
  obtain ⟨field, found, rfl⟩ := Option.map_eq_some_iff.mp held
  exact (well_formed_fields_iff fields).mp formed.1 field (List.mem_of_find?_eq_some found)

include pairs apart formed ran

theorem steps_changed : notes.any Pruned.changed = true ↔ after ≠ fields := by
  have stepped := steps_run steps apart fields after notes formed.2 ran
  have exact_ : ∀ step ∈ steps, ∀ own, step.outcome (fieldOf fields step.key) = .ok (fieldOf after step.key, own) →
      (own.any Pruned.changed = true ↔ fieldOf after step.key ≠ fieldOf fields step.key) := by
    intro step member own outcome
    obtain ⟨other, _, _, expected, exact_⟩ := Keyed.matched_left _ _ _ pairs step member
    exact (outcome_exact step other expected exact_ _ _ own (field_formed fields formed step.key) outcome).2.1
  constructor
  · intro told same
    obtain ⟨note, member, changed⟩ := List.any_eq_true.mp told
    obtain ⟨step, among, own, outcome, held⟩ := stepped.noted note member
    exact (exact_ step among own outcome).mp (List.any_eq_true.mpr ⟨note, held, changed⟩) (same ▸ rfl)
  · intro differs
    by_contra untold
    refine differs (fields_ext after fields stepped.sorted formed.2 fun name => ?_)
    by_cases known : name ∈ steps.map FieldStep.key
    · obtain ⟨step, among, rfl⟩ := List.mem_map.mp known
      obtain ⟨own, outcome, within⟩ := stepped.each step among
      by_contra differ
      obtain ⟨note, member, changed⟩ := List.any_eq_true.mp ((exact_ step among own outcome).mpr differ)
      exact untold (List.any_eq_true.mpr ⟨note, within member, changed⟩)
    · exact stepped.others name known

theorem steps_again : ∃ later, runSteps again after = .ok (after, later) ∧ ∀ note ∈ later, note = {} := by
  have stepped := steps_run steps apart fields after notes formed.2 ran
  refine steps_idle again _ after stepped.sorted fun other member => ?_
  obtain ⟨step, among, same, expected, exact_⟩ := Keyed.matched_right _ _ _ pairs other member
  obtain ⟨own, outcome, _⟩ := stepped.each step among
  rw [same]
  exact (outcome_exact step other expected exact_ _ _ own (field_formed fields formed step.key) outcome).2.2

end Steps

section Removal

def projectsOf (state : Value) : Fields := ((Rollout.get state "local-projects").bind asObject).getD []

def projectOf (state : Value) (id : String) : Option Value := fieldOf (projectsOf state) id

def References (state : Value) (id : String) : Prop :=
  (∃ values, Rollout.get state "project-order" = some (.array values) ∧ Value.string id ∈ values) ∨
    (∃ selection, Rollout.get state "selected-project" = some selection ∧ projectIdOf selection = some id) ∨
    ∃ entries entry, Rollout.get state "thread-project-assignments" = some (.object entries) ∧ entry ∈ entries ∧
      projectIdOf entry.2 = some id

def prunedKeys : List String :=
  ["local-projects", "active-workspace-roots", "electron-saved-workspace-roots", "project-order", "selected-project",
   "thread-project-assignments", "thread-workspace-root-hints", "thread-writable-roots"]

variable (selectedPaths : List (List Char))

-- The projects that had roots, all of them selected.
def removes (state : Value) (id : String) : Bool := (projectOf state id).any (allSelected selectedPaths)

def keepsAssignment (before : Value) (assignment : Value) : Bool :=
  !((projectIdOf assignment).any (removes selectedPaths before) ||
    ((Rollout.get assignment "cwd").bind Value.asStr).any (belowSelected selectedPaths))

structure PathsRemoved (before after : Value) (result : CodexProjectCleanupResult) : Prop where
  gone : ∀ id project, projectOf before id = some project → (projectOf after id = none ↔ allSelected selectedPaths project = true)
  kept : ∀ id project, projectOf before id = some project → allSelected selectedPaths project = false →
    projectOf after id = some (withoutSelected selectedPaths project)
  new : ∀ id, projectOf before id = none → projectOf after id = none
  unreferenced : ∀ id, removes selectedPaths before id = true → ¬ References after id
  roots : ∀ key ∈ ["active-workspace-roots", "electron-saved-workspace-roots"],
    Rollout.get after key = (Rollout.get before key).map (filterValues (staysUnless (isSelected selectedPaths)))
  order : Rollout.get after "project-order" =
    (Rollout.get before "project-order").map (filterValues (staysUnless (removes selectedPaths before)))
  selection : Rollout.get after "selected-project" =
    (Rollout.get before "selected-project").filter fun selection => !(projectIdOf selection).any (removes selectedPaths before)
  assignments : Rollout.get after "thread-project-assignments" =
    (Rollout.get before "thread-project-assignments").map (filterEntries (keepsAssignment selectedPaths before))
  hints : Rollout.get after "thread-workspace-root-hints" =
    (Rollout.get before "thread-workspace-root-hints").map (filterEntries fun path => !path.asStr.any (belowSelected selectedPaths))
  writable : Rollout.get after "thread-writable-roots" =
    (Rollout.get before "thread-writable-roots").map (mapEntries (filterValues (staysUnless (belowSelected selectedPaths))))
  others : ∀ key ∉ prunedKeys, Rollout.get after key = Rollout.get before key
  changed : result.changed = true ↔ after ≠ before
  again : removeCodexProjectPaths selectedPaths after = .ok (after, ⟨false, 0, 0⟩)

theorem steps_pair (removed : List String) :
    ExactSteps (localProjects selectedPaths :: references selectedPaths removed)
      (localProjects selectedPaths :: references selectedPaths []) := by
  have none_ : ∀ id : String, decide (id ∈ ([] : List String)) = true → decide (id ∈ removed) = true := by simp
  exact .cons ⟨rfl, _, projects_exact selectedPaths⟩ (.cons ⟨rfl, _, values_exact _ _ _ fun _ drops => drops⟩
    (.cons ⟨rfl, _, values_exact _ _ _ fun _ drops => drops⟩ (.cons ⟨rfl, _, values_exact _ _ _ none_⟩
    (.cons ⟨rfl, _, deselect_exact removed⟩ (.cons ⟨rfl, _, assignments_exact selectedPaths removed⟩
    (.cons ⟨rfl, _, hints_exact selectedPaths⟩ (.cons ⟨rfl, _, writable_exact selectedPaths⟩ .nil)))))))

theorem steps_keys (removed : List String) :
    (localProjects selectedPaths :: references selectedPaths removed).map FieldStep.key = prunedKeys := rfl

theorem steps_apart (removed : List String) :
    ((localProjects selectedPaths :: references selectedPaths removed).map FieldStep.key).Nodup := by
  rw [steps_keys, prunedKeys]
  simp

theorem removal_ok (before after : Value) (result : CodexProjectCleanupResult) :
    removeCodexProjectPaths selectedPaths before = .ok (after, result) ↔ ∃ fields mid kept first others, before = .object fields ∧
      (localProjects selectedPaths).apply fields = .ok (mid, first) ∧
      runSteps (references selectedPaths (first.flatMap Pruned.removedProjectIds)) mid = .ok (kept, others) ∧
      after = .object kept ∧ result = total (first ++ others) := by
  simp only [removeCodexProjectPaths, bind_ok, found_ok, pure_ok, as_object_some, Prod.exists, Prod.mk.injEq]
  constructor
  · intro ran
    obtain ⟨fields, held, mid, first, one, kept, others, rest, rfl, rfl⟩ := ran
    exact ⟨fields, mid, kept, first, others, held, one, rest, rfl, rfl⟩
  · intro ran
    obtain ⟨fields, mid, kept, first, others, held, one, rest, rfl, rfl⟩ := ran
    exact ⟨fields, held, mid, first, one, kept, others, rest, rfl, rfl⟩

theorem quiet_total (notes : List Pruned) (quiet : ∀ note ∈ notes, note = {}) : total notes = ⟨false, 0, 0⟩ := by
  rw [List.eq_replicate_iff.mpr ⟨rfl, quiet⟩]
  simp [total]

theorem quiet_ids (notes : List Pruned) (quiet : ∀ note ∈ notes, note = {}) : notes.flatMap Pruned.removedProjectIds = [] := by
  rw [List.flatMap_eq_nil_iff]
  intro note member
  rw [quiet note member]

-- What the first step removes, in terms of the document it finds.
theorem removed_ids (fields mid : Fields) (first : List Pruned) (formed : WellFormed (.object fields))
    (one : (localProjects selectedPaths).apply fields = .ok (mid, first)) :
    (fun id => decide (id ∈ first.flatMap Pruned.removedProjectIds)) = removes selectedPaths (.object fields) := by
  obtain ⟨changed, outcome, _⟩ := (apply_ok _ fields mid first).mp one
  change FieldStep.outcome _ (fieldOf fields "local-projects") = _ at outcome
  funext id
  rw [Bool.eq_iff_iff, decide_eq_true_iff, removes, Option.any_eq_true]
  cases held : fieldOf fields "local-projects" with
  | none =>
      rw [held] at outcome
      cases outcome
      have found : projectsOf (.object fields) = [] := by
        rw [projectsOf, Rollout.get, held]
        rfl
      simp [projectOf, found, fieldOf]
  | some value =>
      rw [held] at outcome
      simp only [FieldStep.outcome, bind_ok, pure_ok, Prod.exists, Prod.mk.injEq] at outcome
      obtain ⟨after, note, ran, _, rfl⟩ := outcome
      obtain ⟨projects, pruned, rfl, each, _, rfl⟩ := prune_projects_ok selectedPaths value after note ran
      have valued : WellFormed (.object projects) := field_formed fields formed "local-projects" _ held
      have found : projectsOf (.object fields) = projects := by
        rw [projectsOf, Rollout.get, held]
        rfl
      rw [List.flatMap_singleton, (pruned_projects selectedPaths projects pruned valued.1 each).removed, List.mem_map]
      simp only [projectOf, found, field_iff projects valued.2, List.mem_filter]
      constructor
      · intro removed
        obtain ⟨project, ⟨member, selected⟩, rfl⟩ := removed
        exact ⟨project.2, member, selected⟩
      · intro removed
        obtain ⟨project, member, selected⟩ := removed
        exact ⟨(id, project), ⟨member, selected⟩, rfl⟩

-- A call that succeeds is one run over eight fields.
structure Removal (before after : Value) (result : CodexProjectCleanupResult) (removed : List String) (notes : List Pruned)
    (fields kept : Fields) :
    Prop where
  start : before = .object fields
  finish : after = .object kept
  told : result = total notes
  known : (fun id => decide (id ∈ removed)) = removes selectedPaths before
  steps : runSteps (localProjects selectedPaths :: references selectedPaths removed) fields = .ok (kept, notes)

theorem removal_runs (before after : Value) (result : CodexProjectCleanupResult) (formed : WellFormed before)
    (ran : removeCodexProjectPaths selectedPaths before = .ok (after, result)) :
    ∃ removed notes fields kept, Removal selectedPaths before after result removed notes fields kept := by
  obtain ⟨fields, mid, kept, first, others, rfl, one, rest, rfl, rfl⟩ := (removal_ok selectedPaths before after result).mp ran
  exact ⟨_, first ++ others, fields, kept, rfl, rfl, rfl, removed_ids selectedPaths fields mid first formed one,
    (run_steps_cons _ _ fields kept _).mpr ⟨mid, first, others, one, rest, rfl⟩⟩

theorem field_filter_value (keep : Value → Bool) (fields : Fields) (sorted : KeysSorted fields) (name : String) :
    fieldOf (fields.filter fun field => keep field.2) name = (fieldOf fields name).filter keep := by
  refine Option.ext fun value => ?_
  rw [field_iff _ (filter_sorted _ fields sorted), List.mem_filter, Option.filter_eq_some_iff, field_iff fields sorted]

theorem projects_sorted (state : Value) (formed : WellFormed state) : KeysSorted (projectsOf state) := by
  cases state with
  | object fields =>
      cases held : fieldOf fields "local-projects" with
      | none => simp [projectsOf, Rollout.get, held, KeysSorted]
      | some value =>
          have valued := field_formed fields formed "local-projects" value held
          cases value with
          | object projects => simpa [projectsOf, Rollout.get, held, asObject, KeysSorted] using valued.2
          | _ => simp [projectsOf, Rollout.get, held, asObject, KeysSorted]
  | _ => exact .nil

section Removed

variable (before after : Value) (result : CodexProjectCleanupResult) (removed : List String) (notes : List Pruned)
    (fields kept : Fields)
  (formed : WellFormed before) (removal : Removal selectedPaths before after result removed notes fields kept)

include formed removal

-- A field after the call in terms of the same field before it.
theorem step_field (step : FieldStep Pruned) (again : Value → Except String (Option Value × Pruned)) (expected : Value → Option Value)
    (exact_ : Exact step.run again expected)
    (member : step ∈ localProjects selectedPaths :: references selectedPaths removed) :
    Rollout.get after step.key = (Rollout.get before step.key).bind expected := by
  obtain ⟨rfl, rfl, _, _, steps⟩ := removal
  have stepped := steps_run _ (steps_apart selectedPaths removed) fields kept notes formed.2 steps
  obtain ⟨own, outcome, _⟩ := stepped.each step member
  exact (outcome_exact step ⟨step.key, again⟩ expected exact_ _ _ own (field_formed fields formed step.key) outcome).1

theorem step_map (key : String) (run again : Value → Except String (Option Value × Pruned)) (change : Value → Value)
    (exact_ : Exact run again fun value => some (change value)) (member : ⟨key, run⟩ ∈ references selectedPaths removed) :
    Rollout.get after key = (Rollout.get before key).map change := by
  rw [step_field selectedPaths before after result removed notes fields kept formed removal ⟨key, run⟩ again _ exact_
    (.tail _ member)]
  cases Rollout.get before key <;> rfl

theorem removal_others (key : String) (other : key ∉ prunedKeys) : Rollout.get after key = Rollout.get before key := by
  obtain ⟨rfl, rfl, _, _, steps⟩ := removal
  exact (steps_run _ (steps_apart selectedPaths removed) fields kept notes formed.2 steps).others key other

theorem removal_changed : result.changed = true ↔ after ≠ before := by
  obtain ⟨rfl, rfl, rfl, _, steps⟩ := removal
  have changed :=
    steps_changed _ _ (steps_pair selectedPaths removed) (steps_apart selectedPaths removed) fields kept notes formed steps
  rw [total, changed, Ne, Ne, Value.object.injEq]

theorem removal_again : removeCodexProjectPaths selectedPaths after = .ok (after, ⟨false, 0, 0⟩) := by
  obtain ⟨rfl, rfl, rfl, _, steps⟩ := removal
  obtain ⟨later, ran, quiet⟩ :=
    steps_again _ _ (steps_pair selectedPaths removed) (steps_apart selectedPaths removed) fields kept notes formed steps
  obtain ⟨mid, first, others, one, rest, rfl⟩ := (run_steps_cons _ _ kept kept later).mp ran
  have none_ := quiet_ids first fun note member => quiet note (List.mem_append_left _ member)
  rw [← quiet_total _ quiet]
  exact (removal_ok selectedPaths _ _ _).mpr ⟨kept, mid, kept, first, others, rfl, one, none_.symm ▸ rest, rfl, rfl⟩

theorem projects_after : projectsOf after = ((projectsOf before).filter fun project => !allSelected selectedPaths project.2).map
    fun project => (project.1, withoutSelected selectedPaths project.2) := by
  have field :=
    step_field selectedPaths before after result removed notes fields kept formed removal _ _ _ (projects_exact selectedPaths)
    (List.mem_cons_self : localProjects selectedPaths ∈ _)
  change Rollout.get after "local-projects" = (Rollout.get before "local-projects").bind _ at field
  rw [projectsOf, projectsOf, field]
  cases Rollout.get before "local-projects" with
  | none => rfl
  | some value => cases value <;> rfl

theorem project_after (id : String) :
    projectOf after id = ((projectOf before id).filter fun project => !allSelected selectedPaths project).map
      (withoutSelected selectedPaths) := by
  rw [projectOf, projects_after selectedPaths before after result removed notes fields kept formed removal, field_map, projectOf,
    field_filter_value (fun project => !allSelected selectedPaths project) _ (projects_sorted before formed)]

omit formed removal in
theorem removal_unreferenced (order : Rollout.get after "project-order" =
      (Rollout.get before "project-order").map (filterValues (staysUnless (removes selectedPaths before))))
    (selection : Rollout.get after "selected-project" =
      (Rollout.get before "selected-project").filter fun selection => !(projectIdOf selection).any (removes selectedPaths before))
    (assignments : Rollout.get after "thread-project-assignments" =
      (Rollout.get before "thread-project-assignments").map (filterEntries (keepsAssignment selectedPaths before)))
    (id : String) (gone : removes selectedPaths before id = true) : ¬ References after id := by
  intro references
  rcases references with ⟨values, held, member⟩ | ⟨selected, held, names⟩ | ⟨entries, entry, held, member, names⟩
  · rw [order] at held
    obtain ⟨value, _, same⟩ := Option.map_eq_some_iff.mp held
    cases value with
    | array listed =>
        cases same
        have stays := (List.mem_filter.mp member).2
        simp [staysUnless, Value.asStr, gone] at stays
    | _ => cases same
  · rw [selection, Option.filter_eq_some_iff, names] at held
    simp [gone] at held
  · rw [assignments] at held
    obtain ⟨value, _, same⟩ := Option.map_eq_some_iff.mp held
    cases value with
    | object listed =>
        cases same
        have stays := (List.mem_filter.mp member).2
        simp [keepsAssignment, names, gone] at stays
    | _ => cases same

end Removed

theorem removed_project_paths (before after : Value) (result : CodexProjectCleanupResult) (formed : WellFormed before)
    (ran : removeCodexProjectPaths selectedPaths before = .ok (after, result)) : PathsRemoved selectedPaths before after result := by
  obtain ⟨removed, notes, fields, kept, removal⟩ := removal_runs selectedPaths before after result formed ran
  have field := step_map selectedPaths before after result removed notes fields kept formed removal
  have project := project_after selectedPaths before after result removed notes fields kept formed removal
  have order := field "project-order" _ _ _ (values_exact _ _ _ fun _ drops => drops) (.tail _ (.tail _ (.head _)))
  have assignments := field "thread-project-assignments" _ _ _ (assignments_exact selectedPaths removed)
    (.tail _ (.tail _ (.tail _ (.tail _ (.head _)))))
  have selection := step_field selectedPaths before after result removed notes fields kept formed removal ⟨"selected-project", _⟩ _ _
    (deselect_exact removed) (.tail _ (.tail _ (.tail _ (.tail _ (.head _)))))
  have keeps : (fun value => !dropsAssignment selectedPaths removed value) = keepsAssignment selectedPaths before := by
    funext value
    rw [dropsAssignment, removal.known, keepsAssignment]
  rw [removal.known] at order selection
  rw [keeps] at assignments
  have selected : Rollout.get after "selected-project" =
      (Rollout.get before "selected-project").filter fun selection =>
        !(projectIdOf selection).any (removes selectedPaths before) := by
    rw [selection]
    cases Rollout.get before "selected-project" <;> rfl
  exact {
    gone := by
      intro id held there
      rw [project, there, Option.map_eq_none_iff, Option.filter_eq_none_iff]
      simp
    kept := by
      intro id held there unselected
      rw [project, there, Option.filter_some, unselected]
      rfl
    new := by
      intro id absent
      rw [project, absent]
      rfl
    unreferenced := removal_unreferenced selectedPaths before after order selected assignments
    roots := by
      intro key member
      rcases List.mem_pair.mp member with rfl | rfl
      · exact field _ _ _ _ (values_exact _ _ _ fun _ drops => drops) (.head _)
      · exact field _ _ _ _ (values_exact _ _ _ fun _ drops => drops) (.tail _ (.head _))
    order := order
    selection := selected
    assignments := assignments
    hints := field _ _ _ _ (hints_exact selectedPaths) (.tail _ (.tail _ (.tail _ (.tail _ (.tail _ (.head _))))))
    writable := field _ _ _ _ (writable_exact selectedPaths) (.tail _ (.tail _ (.tail _ (.tail _ (.tail _ (.tail _ (.head _)))))))
    others := removal_others selectedPaths before after result removed notes fields kept formed removal
    changed := removal_changed selectedPaths before after result removed notes fields kept formed removal
    again := removal_again selectedPaths before after result removed notes fields kept formed removal }

end Removal

end SessionSync.Workspace
