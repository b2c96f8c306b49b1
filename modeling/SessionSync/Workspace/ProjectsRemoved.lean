import SessionSync.Workspace.ProjectRemoval

set_option autoImplicit false

namespace SessionSync.Workspace

open SessionSync.Core Checked Local Config Rollout

section Values

def filterValues (keep : Value → Bool) : Value → Value
  | .array values => .array (values.filter keep)
  | other => other

def filterEntries (keep : Value → Bool) : Value → Value
  | .object fields => .object (fields.filter fun field => keep field.2)
  | other => other

def mapEntries (change : Value → Value) : Value → Value
  | .object fields => .object (fields.map fun field => (field.1, change field.2))
  | other => other

def mapField (key : String) (change : Value → Value) : Value → Value
  | .object fields => .object (alterField key ((fieldOf fields key).map change) fields)
  | other => other

theorem as_array_some (value : Value) (values : List Value) : asArray value = some values ↔ value = .array values := by
  cases value <;> simp [asArray]

theorem as_object_some (value : Value) (fields : Fields) : asObject value = some fields ↔ value = .object fields := by
  cases value <;> simp [asObject]

theorem filter_same (keep : Value → Bool) (values : List Value) : (values.filter keep).length = values.length ↔
    values.filter keep = values :=
  List.filter_sublist.length_eq

theorem filter_again (keep : Value → Bool) (values : List Value) : (values.filter keep).filter keep = values.filter keep := by
  rw [List.filter_filter]
  simp only [Bool.and_self]

-- What no step of a loop changes the loop leaves as it is, and only that.
theorem map_each_changed {α β : Type} (step : α → Except String β) (image : β → α) (changed : β → Bool) (items : List α)
    (results : List β) (each : ∀ item ∈ items, ∀ result, step item = .ok result → (changed result = true ↔ image result ≠ item))
    (ran : items.mapM step = .ok results) : results.any changed = true ↔ results.map image ≠ items := by
  induction items generalizing results with
  | nil =>
      cases ran
      simp
  | cons item rest ih =>
      obtain ⟨first, tail⟩ := List.forall_mem_cons.mp each
      simp only [List.mapM_cons, bind_ok, pure_ok] at ran
      obtain ⟨result, one, others, many, rfl⟩ := ran
      rw [List.any_cons, Bool.or_eq_true, ih others tail many, first result one, List.map_cons, Ne, Ne, Ne, List.cons_eq_cons]
      exact not_and_or.symm

end Values

-- A part of the removal: what it makes of a value, whether it tells so, and that the
-- same part of a second call finds nothing more to do.
structure Exact (run again : Value → Except String (Option Value × Pruned)) (expected : Value → Option Value) : Prop where
  value : ∀ before after note, WellFormed before → run before = .ok (after, note) → after = expected before
  changed : ∀ before after note, WellFormed before → run before = .ok (after, note) → (note.changed = true ↔ after ≠ some before)
  settled : ∀ before after note, WellFormed before → run before = .ok (some after, note) → again after = .ok (some after, {})

section Parts

theorem retain_values_ok (drops : String → Bool) (error : String) (before : Value) (after : Option Value) (note : Pruned) :
    retainValues drops error before = .ok (after, note) ↔ ∃ values, before = .array values ∧
      after = some (.array (values.filter (staysUnless drops))) ∧
      note = { changed := decide ((values.filter (staysUnless drops)).length ≠ values.length) } := by
  simp only [retainValues, bind_ok, found_ok, pure_ok, Prod.mk.injEq, as_array_some]
  constructor
  · intro ran
    obtain ⟨values, held, rfl, rfl⟩ := ran
    exact ⟨values, held, rfl, rfl⟩
  · intro ran
    obtain ⟨values, held, rfl, rfl⟩ := ran
    exact ⟨values, held, rfl, rfl⟩

-- The second call may drop less, as it has no projects to remove.
theorem values_exact (drops fewer : String → Bool) (error : String) (within : ∀ text, fewer text = true → drops text = true) :
    Exact (retainValues drops error) (retainValues fewer error) fun value => some (filterValues (staysUnless drops) value) where
  value := by
    intro before after note _ ran
    obtain ⟨values, rfl, rfl, rfl⟩ := (retain_values_ok drops error before after note).mp ran
    rfl
  changed := by
    intro before after note _ ran
    obtain ⟨values, rfl, rfl, rfl⟩ := (retain_values_ok drops error before after note).mp ran
    rw [decide_eq_true_iff, Ne, filter_same, Ne, Option.some.injEq, Value.array.injEq]
  settled := by
    intro before after note _ ran
    obtain ⟨values, rfl, same, rfl⟩ := (retain_values_ok drops error before (some after) note).mp ran
    cases same
    have kept : (values.filter (staysUnless drops)).filter (staysUnless fewer) = values.filter (staysUnless drops) := by
      rw [List.filter_eq_self]
      intro value member
      obtain ⟨_, stays⟩ := List.mem_filter.mp member
      cases text : value.asStr with
      | none => simp [staysUnless, text]
      | some text' =>
          simp only [staysUnless, text, Option.all_some, Bool.not_eq_true'] at stays ⊢
          by_cases fewerDrops : fewer text' = true
          · rw [within text' fewerDrops] at stays
            cases stays
          · simpa using fewerDrops
    rw [(retain_values_ok fewer error _ _ _).mpr ⟨_, rfl, rfl, rfl⟩, kept]
    simp

theorem deselect_exact (removed : List String) :
    Exact (deselect removed) (deselect []) fun value => (some value).filter fun value => !(projectIdOf value).any (· ∈ removed) where
  value := by
    intro before after note _ ran
    by_cases selects : (projectIdOf before).any (· ∈ removed) = true
    · rw [deselect, if_pos selects] at ran
      cases ran
      rw [Option.filter_some, selects]
      rfl
    · rw [deselect, if_neg selects] at ran
      cases ran
      rw [Option.filter_some, if_pos]
      simpa using selects
  changed := by
    intro before after note _ ran
    by_cases selects : (projectIdOf before).any (· ∈ removed) = true
    · rw [deselect, if_pos selects] at ran
      cases ran
      exact iff_of_true rfl nofun
    · rw [deselect, if_neg selects] at ran
      cases ran
      exact iff_of_false nofun fun differs => differs rfl
  settled := by
    intro before after note _ _
    simp [deselect]

theorem retain_entries_ok (drops : Value → Bool) (error : String) (before after : Value) (gone : Nat) :
    retainEntries drops error before = .ok (after, gone) ↔ ∃ entries, before = .object entries ∧
      after = .object (entries.filter fun entry => !drops entry.2) ∧
      gone = entries.length - (entries.filter fun entry => !drops entry.2).length := by
  simp only [retainEntries, bind_ok, found_ok, pure_ok, Prod.mk.injEq, as_object_some]
  constructor
  · intro ran
    obtain ⟨entries, held, rfl, rfl⟩ := ran
    exact ⟨entries, held, rfl, rfl⟩
  · intro ran
    obtain ⟨entries, held, rfl, rfl⟩ := ran
    exact ⟨entries, held, rfl, rfl⟩

theorem entries_value (drops : Value → Bool) (error : String) (before after : Value) (gone : Nat)
    (ran : retainEntries drops error before = .ok (after, gone)) : after = filterEntries (fun value => !drops value) before := by
  obtain ⟨entries, rfl, rfl, rfl⟩ := (retain_entries_ok drops error before after gone).mp ran
  rfl

theorem entries_changed (drops : Value → Bool) (error : String) (before after : Value) (gone : Nat)
    (ran : retainEntries drops error before = .ok (after, gone)) : decide (0 < gone) = true ↔ some after ≠ some before := by
  obtain ⟨entries, rfl, rfl, rfl⟩ := (retain_entries_ok drops error before after gone).mp ran
  have shorter := List.length_filter_le (fun entry : String × Value => !drops entry.2) entries
  rw [decide_eq_true_iff, Ne, Option.some.injEq, Value.object.injEq, ← List.filter_sublist.length_eq]
  omega

theorem entries_settled (drops fewer : Value → Bool) (error : String) (within : ∀ value, fewer value = true → drops value = true)
    (before after : Value) (gone : Nat) (ran : retainEntries drops error before = .ok (after, gone)) :
    retainEntries fewer error after = .ok (after, 0) := by
  obtain ⟨entries, rfl, rfl, rfl⟩ := (retain_entries_ok drops error before after gone).mp ran
  have kept : (entries.filter fun entry => !drops entry.2).filter (fun entry => !fewer entry.2) = entries.filter fun entry =>
    !drops entry.2 := by
    rw [List.filter_eq_self]
    intro entry member
    obtain ⟨_, stays⟩ := List.mem_filter.mp member
    by_cases dropped : fewer entry.2 = true
    · rw [within entry.2 dropped] at stays
      cases stays
    · simpa using dropped
  rw [(retain_entries_ok fewer error _ _ _).mpr ⟨_, rfl, rfl, rfl⟩, kept, Nat.sub_self]

variable (selectedPaths : List (List Char))

theorem assignments_exact (removed : List String) :
    Exact (retainAssignments selectedPaths removed) (retainAssignments selectedPaths [])
    fun value => some (filterEntries (fun value => !dropsAssignment selectedPaths removed value) value) where
  value := by
    intro before after note _ ran
    simp only [retainAssignments, bind_ok, pure_ok, Prod.exists, Prod.mk.injEq] at ran
    obtain ⟨kept, gone, retained, rfl, rfl⟩ := ran
    rw [entries_value _ _ _ _ _ retained]
  changed := by
    intro before after note _ ran
    simp only [retainAssignments, bind_ok, pure_ok, Prod.exists, Prod.mk.injEq] at ran
    obtain ⟨kept, gone, retained, rfl, rfl⟩ := ran
    exact entries_changed _ _ _ _ _ retained
  settled := by
    intro before after note _ ran
    simp only [retainAssignments, bind_ok, pure_ok, Prod.exists, Prod.mk.injEq] at ran
    obtain ⟨kept, gone, retained, same, rfl⟩ := ran
    cases same
    have within : ∀ value, dropsAssignment selectedPaths [] value = true → dropsAssignment selectedPaths removed value = true := by
      intro value dropped
      rw [dropsAssignment, Bool.or_eq_true] at dropped ⊢
      refine dropped.imp_left fun impossible => ?_
      cases held : projectIdOf value <;> simp [held] at impossible
    rw [retainAssignments, entries_settled _ _ _ within _ _ _ retained]
    rfl

theorem hints_exact : Exact (retainHints selectedPaths) (retainHints selectedPaths)
    fun value => some (filterEntries (fun path => !path.asStr.any (belowSelected selectedPaths)) value) where
  value := by
    intro before after note _ ran
    simp only [retainHints, bind_ok, pure_ok, Prod.exists, Prod.mk.injEq] at ran
    obtain ⟨kept, gone, retained, rfl, rfl⟩ := ran
    rw [entries_value _ _ _ _ _ retained]
  changed := by
    intro before after note _ ran
    simp only [retainHints, bind_ok, pure_ok, Prod.exists, Prod.mk.injEq] at ran
    obtain ⟨kept, gone, retained, rfl, rfl⟩ := ran
    exact entries_changed _ _ _ _ _ retained
  settled := by
    intro before after note _ ran
    simp only [retainHints, bind_ok, pure_ok, Prod.exists, Prod.mk.injEq] at ran
    obtain ⟨kept, gone, retained, same, rfl⟩ := ran
    cases same
    rw [retainHints, entries_settled _ _ _ (fun _ dropped => dropped) _ _ _ retained]
    rfl

theorem retain_roots_ok (entry : String × Value) (result : (String × Value) × Bool) :
    retainRoots selectedPaths entry = .ok result ↔ ∃ roots, entry.2 = .array roots ∧
      result = ((entry.1, .array (roots.filter (staysUnless (belowSelected selectedPaths)))),
        decide ((roots.filter (staysUnless (belowSelected selectedPaths))).length ≠ roots.length)) := by
  simp only [retainRoots, bind_ok, found_ok, pure_ok, as_array_some]
  constructor
  · intro ran
    obtain ⟨roots, held, rfl⟩ := ran
    exact ⟨roots, held, rfl⟩
  · intro ran
    obtain ⟨roots, held, rfl⟩ := ran
    exact ⟨roots, held, rfl⟩

theorem writable_ok (before : Value) (after : Option Value) (note : Pruned) :
    retainWritableRoots selectedPaths before = .ok (after, note) ↔ ∃ entries kept, before = .object entries ∧
      entries.mapM (retainRoots selectedPaths) = .ok kept ∧ after = some (.object (kept.map Prod.fst)) ∧
      note = { changed := kept.any Prod.snd } := by
  simp only [retainWritableRoots, bind_ok, found_ok, pure_ok, Prod.mk.injEq, as_object_some]
  constructor
  · intro ran
    obtain ⟨entries, held, kept, each, rfl, rfl⟩ := ran
    exact ⟨entries, kept, held, each, rfl, rfl⟩
  · intro ran
    obtain ⟨entries, kept, held, each, rfl, rfl⟩ := ran
    exact ⟨entries, held, kept, each, rfl, rfl⟩

theorem writable_exact : Exact (retainWritableRoots selectedPaths) (retainWritableRoots selectedPaths)
    fun value => some (mapEntries (filterValues (staysUnless (belowSelected selectedPaths))) value) where
  value := by
    intro before after note _ ran
    obtain ⟨entries, kept, rfl, each, rfl, rfl⟩ := (writable_ok selectedPaths before after note).mp ran
    have image := map_each_image _ (fun entry => (entry.1, filterValues (staysUnless (belowSelected selectedPaths)) entry.2)) Prod.fst
      entries kept (fun entry _ result one => ?_) each
    · rw [image]
      rfl
    · obtain ⟨roots, held, rfl⟩ := (retain_roots_ok selectedPaths entry result).mp one
      rw [held]
      rfl
  changed := by
    intro before after note _ ran
    obtain ⟨entries, kept, rfl, each, rfl, rfl⟩ := (writable_ok selectedPaths before after note).mp ran
    rw [Ne, Option.some.injEq, Value.object.injEq]
    refine map_each_changed _ Prod.fst Prod.snd entries kept (fun entry _ result one => ?_) each
    obtain ⟨name, value⟩ := entry
    obtain ⟨roots, rfl, rfl⟩ := (retain_roots_ok selectedPaths (name, value) result).mp one
    simp only [decide_eq_true_iff, Ne, filter_same, Prod.mk.injEq, Value.array.injEq, true_and]
  settled := by
    intro before after note _ ran
    obtain ⟨entries, kept, rfl, each, same, rfl⟩ := (writable_ok selectedPaths before (some after) note).mp ran
    cases same
    have again := map_each_fixed (retainRoots selectedPaths) (fun entry => (entry, false)) (kept.map Prod.fst) fun entry member => by
      obtain ⟨result, among, rfl⟩ := List.mem_map.mp member
      obtain ⟨source, _, one⟩ := map_each_mem _ entries kept each result among
      obtain ⟨roots, _, rfl⟩ := (retain_roots_ok selectedPaths source result).mp one
      refine (retain_roots_ok selectedPaths _ _).mpr ⟨_, rfl, ?_⟩
      rw [filter_again]
      simp
    refine (writable_ok selectedPaths _ _ _).mpr ⟨_, _, rfl, again, ?_, ?_⟩
    · simp [List.map_map, Function.comp_def]
    · simp

end Parts

section Projects

variable (selectedPaths : List (List Char))

-- Every root of the project is selected, and it has one.
def allSelected (project : Value) : Bool :=
  ((get project "rootPaths").bind asArray).any fun roots => !roots.isEmpty && roots.all fun root =>
    root.asStr.any (isSelected selectedPaths)

def withoutSelected (project : Value) : Value := mapField "rootPaths" (filterValues (staysUnless (isSelected selectedPaths))) project

theorem remove_absent (key : String) (fields : Fields) (absent : fieldOf fields key = none) : removeField key fields = fields := by
  rw [removeField, List.filter_eq_self]
  intro field member
  rw [fieldOf, Option.map_eq_none_iff, List.find?_eq_none] at absent
  simpa using absent field member

theorem none_stay (drops : String → Bool) (values : List Value) :
    (values.filter (staysUnless drops)).isEmpty = values.all fun value => value.asStr.any drops := by
  have opposite : ∀ value : Value, (!staysUnless drops value) = value.asStr.any drops := by
    intro value
    cases text : value.asStr <;> simp [staysUnless, text]
  rw [Bool.eq_iff_iff, List.isEmpty_iff, List.filter_eq_nil_iff, List.all_eq_true]
  simp only [← opposite, Bool.not_eq_true']
  simp only [Bool.not_eq_true]

structure PrunedEntry (project : String × Value) (result : (String × Value) × Pruned) : Prop where
  entry : result.1 = (project.1, withoutSelected selectedPaths project.2)
  changed : result.2.changed = true ↔ withoutSelected selectedPaths project.2 ≠ project.2
  removed : result.2.removedProjectIds = if allSelected selectedPaths project.2 then [project.1] else []
  settled : pruneEntry selectedPaths result.1 = .ok (result.1, {})

theorem prune_entry_ok (id : String) (project : Value) (result : (String × Value) × Pruned)
    (ran : pruneEntry selectedPaths (id, project) = .ok result) : ∃ fields, project = .object fields ∧
      ((fieldOf fields "rootPaths" = none ∧ result = ((id, .object fields), {})) ∨
        ∃ roots, fieldOf fields "rootPaths" = some (.array roots) ∧
          result = ((id, .object (insertField "rootPaths" (.array (roots.filter (staysUnless (isSelected selectedPaths)))) fields)),
            { changed := decide ((roots.filter (staysUnless (isSelected selectedPaths))).length ≠ roots.length)
              removedProjectIds :=
                if !roots.isEmpty && (roots.filter (staysUnless (isSelected selectedPaths))).isEmpty then [id] else [] })) := by
  simp only [pruneEntry, pruneProject, bind_ok, found_ok, pure_ok, as_object_some, Prod.exists] at ran
  obtain ⟨after, note, ⟨fields, rfl, stepped⟩, rfl⟩ := ran
  refine ⟨fields, rfl, ?_⟩
  cases held : fieldOf fields "rootPaths" with
  | none =>
      rw [held] at stepped
      cases stepped
      exact .inl ⟨rfl, rfl⟩
  | some rootPaths =>
      simp only [held, bind_ok, found_ok, pure_ok, as_array_some, Prod.mk.injEq] at stepped
      obtain ⟨roots, rfl, rfl, rfl⟩ := stepped
      exact .inr ⟨roots, rfl, rfl⟩

theorem prune_array (id : String) (fields : Fields) (roots : List Value) (held : fieldOf fields "rootPaths" = some (.array roots)) :
    pruneEntry selectedPaths (id, .object fields) =
      .ok ((id, .object (insertField "rootPaths" (.array (roots.filter (staysUnless (isSelected selectedPaths)))) fields)),
        { changed := decide ((roots.filter (staysUnless (isSelected selectedPaths))).length ≠ roots.length)
          removedProjectIds :=
            if !roots.isEmpty && (roots.filter (staysUnless (isSelected selectedPaths))).isEmpty then [id] else [] }) := by
  simp only [pruneEntry, pruneProject, asObject, asArray, present, held]
  rfl

theorem pruned_entry (project : String × Value) (result : (String × Value) × Pruned) (formed : WellFormed project.2)
    (ran : pruneEntry selectedPaths project = .ok result) : PrunedEntry selectedPaths project result := by
  obtain ⟨id, project⟩ := project
  obtain ⟨fields, rfl, without | ⟨roots, held, rfl⟩⟩ := prune_entry_ok selectedPaths id project result ran
  · obtain ⟨absent, rfl⟩ := without
    have same : withoutSelected selectedPaths (.object fields) = .object fields := by
      rw [withoutSelected, mapField, absent, Option.map_none, alterField, remove_absent _ _ absent]
    exact {
      entry := by rw [same]
      changed := iff_of_false nofun fun differs => differs same
      removed := by simp [allSelected, Rollout.get, absent]
      settled := ran }
  · have sorted : KeysSorted fields := formed.2
    have image : withoutSelected selectedPaths (.object fields) =
        .object (insertField "rootPaths" (.array (roots.filter (staysUnless (isSelected selectedPaths)))) fields) := by
      rw [withoutSelected, mapField, held]
      rfl
    exact {
      entry := by rw [image]
      changed := by
        rw [image, decide_eq_true_iff, Ne, filter_same, Ne, Value.object.injEq]
        refine not_congr ⟨fun same => ?_, fun same => ?_⟩
        · have unchanged := alter_same "rootPaths" fields sorted
          rwa [held, ← same] at unchanged
        · have found := field_insert "rootPaths" "rootPaths" (.array (roots.filter (staysUnless (isSelected selectedPaths)))) fields
          rw [same, held, if_pos rfl, Option.some.injEq, Value.array.injEq] at found
          exact found.symm
      removed := by
        simp only [allSelected, Rollout.get, held, Option.bind_some, asArray, Option.any_some, none_stay]
      settled := by
        have again := prune_array selectedPaths id _ (roots.filter (staysUnless (isSelected selectedPaths)))
          (field_insert "rootPaths" "rootPaths" (.array (roots.filter (staysUnless (isSelected selectedPaths)))) fields)
        have same := alter_same "rootPaths" _ (insert_sorted "rootPaths"
          (.array (roots.filter (staysUnless (isSelected selectedPaths)))) fields sorted)
        rw [field_insert, if_pos rfl, alterField] at same
        rw [again, filter_again, same]
        simp }

theorem prune_projects_ok (before : Value) (after : Option Value) (note : Pruned)
    (ran : pruneProjects selectedPaths before = .ok (after, note)) :
    ∃ projects pruned, before = .object projects ∧ projects.mapM (pruneEntry selectedPaths) = .ok pruned ∧
      after = some (.object ((pruned.map Prod.fst).filter fun project =>
        decide (project.1 ∉ (pruned.map Prod.snd).flatMap Pruned.removedProjectIds))) ∧
      note = { changed := (pruned.map Prod.snd).any Pruned.changed
               removedProjectIds := (pruned.map Prod.snd).flatMap Pruned.removedProjectIds } := by
  simp only [pruneProjects, bind_ok, found_ok, pure_ok, Prod.mk.injEq, as_object_some] at ran
  obtain ⟨projects, held, pruned, each, rfl, rfl⟩ := ran
  exact ⟨projects, pruned, held, each, rfl, rfl⟩

structure PrunedProjects (projects : Fields) (pruned : List ((String × Value) × Pruned)) : Prop where
  entries : pruned.map Prod.fst = projects.map fun project => (project.1, withoutSelected selectedPaths project.2)
  changed : (pruned.map Prod.snd).any Pruned.changed = true ↔ pruned.map Prod.fst ≠ projects
  removed : (pruned.map Prod.snd).flatMap Pruned.removedProjectIds =
    (projects.filter fun project => allSelected selectedPaths project.2).map Prod.fst
  settled : ∀ entry ∈ pruned.map Prod.fst, pruneEntry selectedPaths entry = .ok (entry, {})

theorem pruned_projects (projects : Fields) (pruned : List ((String × Value) × Pruned)) (formed : WellFormedFields projects)
    (each : projects.mapM (pruneEntry selectedPaths) = .ok pruned) : PrunedProjects selectedPaths projects pruned := by
  have one : ∀ project ∈ projects, ∀ result, pruneEntry selectedPaths project = .ok result →
    PrunedEntry selectedPaths project result :=
    fun project member result ran =>
      pruned_entry selectedPaths project result ((well_formed_fields_iff projects).mp formed project member) ran
  have ids := map_each_image _ (fun project => if allSelected selectedPaths project.2 then [project.1] else [])
    (fun result : (String × Value) × Pruned => result.2.removedProjectIds) projects pruned
    (fun project member result ran => (one project member result ran).removed) each
  exact {
    entries :=
      map_each_image _ _ Prod.fst projects pruned (fun project member result ran => (one project member result ran).entry) each
    changed := by
      rw [List.any_map]
      refine map_each_changed _ Prod.fst _ projects pruned (fun project member result ran => ?_) each
      rw [Function.comp_apply, (one project member result ran).changed, (one project member result ran).entry, Ne, Ne, Prod.ext_iff,
        and_iff_right rfl]
    removed := by
      rw [List.flatMap_map, List.flatMap_def, ids]
      clear ids one each formed
      induction projects with
      | nil => rfl
      | cons project rest ih =>
          by_cases selected : allSelected selectedPaths project.2 = true <;> simp [selected, ih]
    settled := by
      intro entry member
      obtain ⟨result, among, rfl⟩ := List.mem_map.mp member
      obtain ⟨project, source, ran⟩ := map_each_mem _ projects pruned each result among
      exact (one project source result ran).settled }

theorem selected_shrinks (project : Value) (selected : allSelected selectedPaths project = true) :
    withoutSelected selectedPaths project ≠ project := by
  intro same
  cases project with
  | object fields =>
      obtain ⟨roots, held, every⟩ := Option.any_eq_true _ _ |>.mp selected
      obtain ⟨value, there, array⟩ := Option.bind_eq_some_iff.mp held
      rw [as_array_some] at array
      subst array
      rw [Rollout.get] at there
      have shrunk : fieldOf fields "rootPaths" = some (.array (roots.filter (staysUnless (isSelected selectedPaths)))) := by
        have after :=
          field_alter "rootPaths" "rootPaths"
            ((fieldOf fields "rootPaths").map (filterValues (staysUnless (isSelected selectedPaths)))) fields
        rw [if_pos rfl, there, Option.map_some] at after
        rw [withoutSelected, mapField, there, Option.map_some, Value.object.injEq] at same
        rwa [same] at after
      rw [there, Option.some.injEq, Value.array.injEq] at shrunk
      rw [Bool.and_eq_true, ← none_stay, ← shrunk] at every
      simp [every.2] at every
  | _ => simp [allSelected, Rollout.get] at selected

-- In a map a project that is not removed has no namesake that is.
theorem filter_ids (projects : Fields) (sorted : KeysSorted projects) :
    ((projects.map fun project => (project.1, withoutSelected selectedPaths project.2)).filter fun project =>
      decide (project.1 ∉ (projects.filter fun project => allSelected selectedPaths project.2).map Prod.fst)) =
    (projects.filter fun project => !allSelected selectedPaths project.2).map fun project =>
      (project.1, withoutSelected selectedPaths project.2) := by
  rw [List.filter_map]
  refine congrArg _ (List.filter_congr fun project member => ?_)
  rw [Function.comp_apply, Bool.eq_iff_iff, decide_eq_true_iff, Bool.not_eq_true', ← Bool.not_eq_true]
  refine not_congr ⟨fun removed => ?_, fun selected => List.mem_map.mpr ⟨project, List.mem_filter.mpr ⟨member, selected⟩, rfl⟩⟩
  obtain ⟨other, among, same⟩ := List.mem_map.mp removed
  obtain ⟨there, selected⟩ := List.mem_filter.mp among
  have apart : (projects.map Prod.fst).Nodup := List.pairwise_map.mpr (List.Pairwise.imp (fun less => String.ne_of_lt less) sorted)
  exact List.inj_on_of_nodup_map apart there member same ▸ selected

theorem projects_exact : Exact (pruneProjects selectedPaths) (pruneProjects selectedPaths) fun value =>
    some (mapEntries (withoutSelected selectedPaths) (filterEntries (fun project => !allSelected selectedPaths project) value)) where
  value := by
    intro before after note formed ran
    obtain ⟨projects, pruned, rfl, each, rfl, rfl⟩ := prune_projects_ok selectedPaths before after note ran
    have facts := pruned_projects selectedPaths projects pruned formed.1 each
    rw [facts.entries, facts.removed, filter_ids selectedPaths projects formed.2]
    rfl
  changed := by
    intro before after note formed ran
    obtain ⟨projects, pruned, rfl, each, rfl, rfl⟩ := prune_projects_ok selectedPaths before after note ran
    have facts := pruned_projects selectedPaths projects pruned formed.1 each
    rw [facts.changed, Ne, Ne, Option.some.injEq, Value.object.injEq]
    refine not_congr ⟨fun same => ?_, fun same => ?_⟩
    · have none_ : (pruned.map Prod.snd).flatMap Pruned.removedProjectIds = [] := by
        rw [facts.removed, List.map_eq_nil_iff, List.filter_eq_nil_iff]
        intro project member selected
        have fixed := List.map_eq_map_iff.mp ((facts.entries.symm.trans same).trans (List.map_id projects).symm) project member
        exact selected_shrinks selectedPaths project.2 selected (congrArg Prod.snd fixed)
      rw [none_, same]
      simp
    · have length := congrArg List.length same
      have counted : (pruned.map Prod.fst).length = projects.length := by rw [facts.entries, List.length_map]
      rw [← counted, List.filter_sublist.length_eq] at length
      exact length.symm.trans same
  settled := by
    intro before after note formed ran
    obtain ⟨projects, pruned, rfl, each, same, rfl⟩ := prune_projects_ok selectedPaths before (some after) note ran
    cases same
    have facts := pruned_projects selectedPaths projects pruned formed.1 each
    have again := map_each_fixed (pruneEntry selectedPaths) (fun entry => (entry, {})) ((pruned.map Prod.fst).filter fun project =>
      decide (project.1 ∉ (pruned.map Prod.snd).flatMap Pruned.removedProjectIds))
      fun entry member => facts.settled entry (List.mem_of_mem_filter member)
    simp only [pruneProjects, asObject, present, again]
    simp [List.map_map, Function.comp_def, List.flatMap_map]

end Projects

end SessionSync.Workspace
