import SessionSync.Core.Staging

set_option autoImplicit false

namespace SessionSync.Core

section Plan

variable (lib : Primitives) (revision : Option String) (baseline workspace : List ThreadBundle)

theorem change_kind_unchanged (base loc : Option ThreadBundle) :
    (changeKind lib base loc).1 = .unchanged ↔ versionHash lib loc = versionHash lib base := by
  cases base with
  | none => cases loc <;> simp [changeKind, versionHash]
  | some thread =>
      cases loc with
      | none => simp [changeKind, versionHash]
      | some other =>
          simp only [changeKind, versionHash, Option.map_some, Option.some.injEq]
          by_cases same : semanticThreadHash lib other = semanticThreadHash lib thread
          · rw [if_pos same]
            exact iff_of_true rfl same
          · rw [if_neg same]
            by_cases archive : archiveIndependentFingerprint lib thread = archiveIndependentFingerprint lib other
            · simp only [if_pos archive, same, reduceCtorEq]
            · simp only [if_neg archive, same, reduceCtorEq]

theorem change_kind_deleted (base loc : Option ThreadBundle) (changed : (changeKind lib base loc).1 ≠ .unchanged) :
    (changeKind lib base loc).1 = .deleted ↔ loc = none := by
  cases loc with
  | none =>
      cases base with
      | none => exact absurd rfl changed
      | some thread => exact ⟨fun _ => rfl, fun _ => rfl⟩
  | some thread =>
      refine ⟨fun deleted => ?_, nofun⟩
      cases base with
      | none => cases deleted
      | some base =>
          simp only [changeKind] at deleted
          split at deleted
          · cases deleted
          · split at deleted <;> cases deleted

def planIds : List String := Keyed.sortedKeys (threadIds baseline ++ threadIds workspace)

theorem mem_plan_ids (id : String) : id ∈ planIds baseline workspace ↔ id ∈ threadIds baseline ∨ id ∈ threadIds workspace := by
  rw [planIds, Keyed.mem_sorted_keys, List.mem_append]

theorem plan_candidate (id : String) : (changePlan lib revision baseline workspace).candidate id =
    if id ∈ planIds baseline workspace then some (changeCandidate lib id (version baseline id) (version workspace id))
    else none := by
  have found := Keyed.find_chosen ChangeCandidate.threadId
    (fun id => some (changeCandidate lib id (version baseline id) (version workspace id)))
    (fun id candidate chosen => by cases chosen; rfl) (planIds baseline workspace) id
  rw [List.filterMap_eq_map'] at found
  exact found

theorem changed_ids_iff (id : String) : id ∈ changedIds (changePlan lib revision baseline workspace) ↔
    ¬ SameVersion lib workspace baseline id := by
  have kind := change_kind_unchanged lib (version baseline id) (version workspace id)
  constructor
  · intro listed same
    obtain ⟨candidate, member, rfl⟩ := List.mem_map.mp listed
    obtain ⟨planned, differs⟩ := List.mem_filter.mp member
    obtain ⟨id, _, rfl⟩ := List.mem_map.mp planned
    exact of_decide_eq_true differs (kind.mpr same)
  · intro differs
    have listed : id ∈ planIds baseline workspace := by
      by_contra outside
      rw [mem_plan_ids, not_or, ← version_mem, ← version_mem] at outside
      exact differs (by rw [SameVersion, outside.1, outside.2])
    refine List.mem_map.mpr ⟨changeCandidate lib id (version baseline id) (version workspace id), ?_, rfl⟩
    exact List.mem_filter.mpr ⟨List.mem_map.mpr ⟨id, listed, rfl⟩, decide_eq_true fun same => differs (kind.mp same)⟩

theorem changed_candidate (id : String) (changed : id ∈ changedIds (changePlan lib revision baseline workspace)) :
    ∃ candidate, (changePlan lib revision baseline workspace).candidate id = some candidate ∧
      candidate.kind ≠ .unchanged ∧ candidate.localThread = version workspace id ∧
      (candidate.kind = .deleted ↔ version workspace id = none) := by
  have differs := (changed_ids_iff lib revision baseline workspace id).mp changed
  have listed : id ∈ planIds baseline workspace := by
    obtain ⟨candidate, member, rfl⟩ := List.mem_map.mp changed
    obtain ⟨id, listed, rfl⟩ := List.mem_map.mp (List.mem_filter.mp member).1
    exact listed
  have kind : (changeKind lib (version baseline id) (version workspace id)).1 ≠ .unchanged :=
    mt (change_kind_unchanged lib (version baseline id) (version workspace id)).mp differs
  have planned := plan_candidate lib revision baseline workspace id
  rw [if_pos listed] at planned
  exact ⟨_, planned, kind, rfl, change_kind_deleted lib _ _ kind⟩

theorem select_loop (ids : List String) (changed : ∀ id ∈ ids, id ∈ changedIds (changePlan lib revision baseline workspace)) :
    selectLoop (changePlan lib revision baseline workspace) ids = .ok () := by
  induction ids with
  | nil => rfl
  | cons id rest ih =>
      obtain ⟨candidate, planned, differs, _⟩ := changed_candidate lib revision baseline workspace id (changed id List.mem_cons_self)
      simp only [selectLoop, planned, if_neg differs]
      exact ih fun other member => changed other (List.mem_cons_of_mem _ member)

-- A pass of the loop puts the workspace's version of the id in place, its absence included.
theorem compose_step (id : String) (rest : List String) (result : Std.ExtTreeMap String ThreadBundle)
    (changed : id ∈ changedIds (changePlan lib revision baseline workspace)) :
    ∃ next, composeLoop (changePlan lib revision baseline workspace) (id :: rest) result =
        composeLoop (changePlan lib revision baseline workspace) rest next ∧
      ∀ other, next[other]? = if other = id then version workspace id else result[other]? := by
  obtain ⟨candidate, planned, differs, present, deleted⟩ := changed_candidate lib revision baseline workspace id changed
  cases kind : candidate.kind with
  | unchanged => exact absurd kind differs
  | deleted =>
      refine ⟨result.erase id, ?_, ?_⟩
      · simp only [composeLoop, planned, kind]
      · rw [deleted.mp kind]
        exact Keyed.lookup_erase result id
  | added | modified | archiveChanged =>
      cases stored : version workspace id with
      | none =>
          have gone := deleted.mpr stored
          rw [kind] at gone
          cases gone
      | some thread =>
          refine ⟨result.insert id thread, ?_, fun other => Keyed.lookup_insert result id other thread⟩
          simp only [composeLoop, planned, kind, present, stored]

theorem compose_loop (ids : List String) (changed : ∀ id ∈ ids, id ∈ changedIds (changePlan lib revision baseline workspace))
    (result : Std.ExtTreeMap String ThreadBundle) :
    ∃ final, composeLoop (changePlan lib revision baseline workspace) ids result = .ok final ∧
      ∀ other, final[other]? = if other ∈ ids then version workspace other else result[other]? := by
  induction ids generalizing result with
  | nil => exact ⟨result, rfl, fun other => rfl⟩
  | cons id rest ih =>
      obtain ⟨next, step, stored⟩ := compose_step lib revision baseline workspace id rest result (changed id List.mem_cons_self)
      obtain ⟨final, run, kept⟩ := ih (fun other member => changed other (List.mem_cons_of_mem _ member)) next
      refine ⟨final, step.trans run, fun other => ?_⟩
      rw [kept other, stored other]
      by_cases later : other ∈ rest
      · rw [if_pos later, if_pos (List.mem_cons_of_mem _ later)]
      · by_cases same : other = id
        · rw [if_neg later, if_pos same, if_pos (same ▸ List.mem_cons_self), same]
        · have outside : other ∉ id :: rest := by
            rw [List.mem_cons, not_or]
            exact ⟨same, later⟩
          rw [if_neg later, if_neg same, if_neg outside]

theorem from_selected (selected : List String)
    (changed : ∀ id ∈ selected, id ∈ changedIds (changePlan lib revision baseline workspace)) :
    StagedChangeSet.fromSelected (changePlan lib revision baseline workspace) selected =
      .ok { baseRevisionId := revision, selectedThreadIds := Std.ExtTreeSet.ofList selected } := by
  have loop := select_loop lib revision baseline workspace (Keyed.sortedKeys selected) fun id member =>
    changed id ((Keyed.mem_sorted_keys selected id).mp member)
  simp only [Keyed.sortedKeys] at loop
  simp only [StagedChangeSet.fromSelected, loop, bind, Except.bind, pure, Except.pure]
  rfl

theorem version_filed (threads : List ThreadBundle) (id : String) (thread : ThreadBundle)
    (found : version threads id = some thread) : thread.threadId = id := Keyed.find_key _ threads id thread found

theorem listed_version (threads : List ThreadBundle) (listed : Listed threads) (id : String) (thread : ThreadBundle)
    (found : version threads id = some thread) : isBlank id = false := by
  rw [← version_filed threads id thread found]
  exact listed.1 thread (Keyed.find_mem _ threads id thread found)

-- The composed tree: the workspace on the selected ids, the remote everywhere else.
theorem compose_staged (remote : List ThreadBundle) (selected : List String)
    (changed : ∀ id ∈ selected, id ∈ changedIds (changePlan lib revision baseline workspace)) (listed : Listed workspace) :
    match composeStagedThreadSet remote (changePlan lib revision baseline workspace)
      { baseRevisionId := revision, selectedThreadIds := Std.ExtTreeSet.ofList selected } with
    | .error _ => ¬ Listed remote
    | .ok composed => Listed remote ∧ Listed composed ∧
        ∀ id, version composed id = if id ∈ selected then version workspace id else version remote id := by
  have sameBase : revision = (changePlan lib revision baseline workspace).baseRevisionId := rfl
  have accepted := staged_thread_map_ok_iff remote "remote"
  cases read : stagedThreadMap remote "remote" with
  | error message =>
      rw [read] at accepted
      simp only [composeStagedThreadSet, ne_eq, ← sameBase, not_true_eq_false, if_false, read, bind, Except.bind, ← accepted]
      rintro ⟨_, impossible⟩
      cases impossible
  | ok map =>
      have remoteListed := accepted.mp ⟨map, read⟩
      have remoteAt := staged_thread_map_lookup remote "remote" map read
      obtain ⟨final, loop, stored⟩ := compose_loop lib revision baseline workspace (Keyed.sortedKeys selected)
        (fun id member => changed id ((Keyed.mem_sorted_keys selected id).mp member)) map
      simp only [Keyed.mem_sorted_keys, remoteAt] at stored
      have source : ∀ id thread, final[id]? = some thread → thread.threadId = id ∧ isBlank id = false := by
        intro id thread present
        rw [stored id] at present
        by_cases chosen : id ∈ selected
        · rw [if_pos chosen] at present
          exact ⟨version_filed workspace id thread present, listed_version workspace listed id thread present⟩
        · rw [if_neg chosen] at present
          exact ⟨version_filed remote id thread present, listed_version remote remoteListed id thread present⟩
      have filed : Keyed.Filed ThreadBundle.threadId final := fun id thread present => (source id thread present).1
      have composed : ∀ id, version (Keyed.values final) id = final[id]? := Keyed.find_values ThreadBundle.threadId final filed
      rw [Keyed.sortedKeys] at loop
      simp only [composeStagedThreadSet, ne_eq, ← sameBase, not_true_eq_false, if_false, read, loop, bind, Except.bind, pure,
        Except.pure]
      refine ⟨remoteListed, ⟨fun thread member => ?_, Keyed.values_distinct _ final filed⟩, fun id => (composed id).trans (stored id)⟩
      have present := Keyed.find_of_mem _ (Keyed.values final) thread (Keyed.values_distinct _ final filed) member
      exact (source thread.threadId thread ((composed thread.threadId).symm.trans present)).2

end Plan

-- Staging any set of the reported changes pushes exactly those: over the baseline
-- they are what a second plan no longer reports, and over any other remote the rest
-- of the tree is the remote's.
theorem staged_selection (lib : Primitives) (revision : Option String) (baseline workspace : List ThreadBundle) :
    match buildChangePlan lib revision baseline workspace with
    | .error _ => ¬ (Listed baseline ∧ Listed workspace)
    | .ok plan => ∀ selected : List String, (∀ id ∈ selected, id ∈ changedIds plan) →
        ∃ staged, StagedChangeSet.fromSelected plan selected = .ok staged ∧
          (∃ composed, composeStagedThreadSet baseline plan staged = .ok composed ∧
            (∀ id ∈ selected, SameVersion lib composed workspace id ∧ version composed id = version workspace id) ∧
            (∀ id, id ∉ selected → version composed id = version baseline id) ∧
            ∃ rebuilt, buildChangePlan lib revision composed workspace = .ok rebuilt ∧
              ∀ id, id ∈ changedIds rebuilt ↔ id ∈ changedIds plan ∧ id ∉ selected) ∧
          ∀ remote, match composeStagedThreadSet remote plan staged with
            | .error _ => ¬ Listed remote
            | .ok composed => ∀ id, id ∉ selected → version composed id = version remote id := by
  have built := build_change_plan_cases lib revision baseline workspace
  cases plan : buildChangePlan lib revision baseline workspace with
  | error message => simpa only [plan] using built
  | ok plan =>
      simp only [plan] at built
      obtain ⟨⟨listedBaseline, listedWorkspace⟩, rfl⟩ := built
      intro selected changed
      refine ⟨_, from_selected lib revision baseline workspace selected changed, ?_, fun remote => ?_⟩
      · have composing := compose_staged lib revision baseline workspace baseline selected changed listedWorkspace
        cases run : composeStagedThreadSet baseline (changePlan lib revision baseline workspace)
          { baseRevisionId := revision, selectedThreadIds := Std.ExtTreeSet.ofList selected } with
        | error message =>
            rw [run] at composing
            exact absurd listedBaseline composing
        | ok composed =>
            rw [run] at composing
            obtain ⟨_, listedComposed, stored⟩ := composing
            have pushed : ∀ id ∈ selected, version composed id = version workspace id := by
              intro id chosen
              rw [stored id, if_pos chosen]
            have rest : ∀ id, id ∉ selected → version composed id = version baseline id := by
              intro id outside
              rw [stored id, if_neg outside]
            have rebuilding := build_change_plan_cases lib revision composed workspace
            cases again : buildChangePlan lib revision composed workspace with
            | error message =>
                rw [again] at rebuilding
                exact absurd ⟨listedComposed, listedWorkspace⟩ rebuilding
            | ok rebuilt =>
                rw [again] at rebuilding
                obtain ⟨_, rfl⟩ := rebuilding
                refine ⟨composed, rfl, fun id chosen => ⟨?_, pushed id chosen⟩, rest, _, again, fun id => ?_⟩
                · rw [SameVersion, pushed id chosen]
                · rw [changed_ids_iff, changed_ids_iff]
                  by_cases chosen : id ∈ selected
                  · simp only [SameVersion, pushed id chosen, not_true_eq_false, chosen, and_false]
                  · simp only [SameVersion, rest id chosen, chosen, not_false_eq_true, and_true]
      · have composing := compose_staged lib revision baseline workspace remote selected changed listedWorkspace
        cases run : composeStagedThreadSet remote (changePlan lib revision baseline workspace)
          { baseRevisionId := revision, selectedThreadIds := Std.ExtTreeSet.ofList selected } with
        | error message =>
            rw [run] at composing
            exact composing
        | ok composed =>
            rw [run] at composing
            intro id outside
            rw [composing.2.2 id, if_neg outside]

end SessionSync.Core
