import SessionSync.Core.Resolution
import SessionSync.Sync.NoDroppedThread

set_option autoImplicit false

namespace SessionSync.Sync

open SessionSync.Core Checked Storage

-- What one pass of each composition puts in the place of a selected id.
def stagedThread (plan : ChangePlan) (id : String) : Except String (Option ThreadBundle) := do
  let candidate ← found (plan.candidate id) ("staged thread is not in the change plan: " ++ id)
  match candidate.kind with
  | .deleted => return none
  | .added | .modified | .archiveChanged => do
      let thread ← found candidate.localThread ("staged local thread is missing: " ++ id)
      return some thread
  | .unchanged => .error ("unchanged thread cannot be staged: " ++ id)

def stagedRef (plan : ChangePlan) (selected : Refs) (id : String) : Except String (Option ThreadRefV4) := do
  let candidate ← found (plan.candidate id) ("staged thread is not in the change plan: " ++ id)
  match candidate.kind with
  | .deleted => do
      ensure (selected.contains id = false) ("a deleted thread must not have a staged descriptor: " ++ id)
      return none
  | .added | .modified | .archiveChanged => do
      let reference ← found selected[id]? ("staged descriptor is missing: " ++ id)
      return some reference
  | .unchanged => .error ("unchanged thread cannot be staged: " ++ id)

theorem compose_loop_replaces (plan : ChangePlan) (ids : List String) (result : Std.ExtTreeMap String ThreadBundle) :
    composeLoop plan ids result = Keyed.replaceAll (stagedThread plan) ids result := by
  induction ids generalizing result with
  | nil => rfl
  | cons id rest ih =>
      rw [composeLoop, Keyed.replaceAll, stagedThread]
      cases plan.candidate id with
      | none => rfl
      | some candidate =>
          cases kind : candidate.kind with
          | deleted => simp only [kind, found, bind, Except.bind, pure, Except.pure, ih, Keyed.put]
          | unchanged => simp only [kind, found, bind, Except.bind]
          | added | modified | archiveChanged =>
              cases held : candidate.localThread with
              | none => simp only [kind, held, found, bind, Except.bind]
              | some thread => simp only [kind, held, found, bind, Except.bind, pure, Except.pure, ih, Keyed.put]

theorem compose_refs_replaces (plan : ChangePlan) (selected : Refs) (ids : List String) (result : Refs) :
    composeRefs plan selected ids result = Keyed.replaceAll (stagedRef plan selected) ids result := by
  induction ids generalizing result with
  | nil => rfl
  | cons id rest ih =>
      rw [composeRefs, Keyed.replaceAll, stagedRef]
      cases plan.candidate id with
      | none => rfl
      | some candidate =>
          cases kind : candidate.kind with
          | deleted =>
              cases held : selected.contains id with
              | true => simp only [kind, found, ensure, bind, Except.bind, reduceCtorEq, if_false]
              | false => simp only [kind, found, ensure, bind, Except.bind, pure, Except.pure, if_true, ih, Keyed.put]
          | unchanged => simp only [kind, found, bind, Except.bind]
          | added | modified | archiveChanged =>
              cases held : selected[id]? with
              | none => simp only [kind, found, bind, Except.bind]
              | some reference => simp only [kind, found, bind, Except.bind, pure, Except.pure, ih, Keyed.put]

-- A selected id that the plan reports as a change.
def PlannedChange (plan : ChangePlan) (id : String) : Prop :=
  ∃ candidate, plan.candidate id = some candidate ∧ candidate.kind ≠ .unchanged

-- A planned change that is no deletion comes with a local thread.
def HasLocal (plan : ChangePlan) (id : String) : Prop :=
  ∀ candidate, plan.candidate id = some candidate → candidate.kind ≠ .deleted → ∃ thread, candidate.localThread = some thread

-- The local version of a planned change, absent for a deletion.
def localVersion (plan : ChangePlan) (id : String) : Option ThreadBundle :=
  (plan.candidate id).bind fun candidate => if candidate.kind = .deleted then none else candidate.localThread

theorem staged_thread_ok_iff (plan : ChangePlan) (id : String) (value : Option ThreadBundle) :
    stagedThread plan id = .ok value ↔ PlannedChange plan id ∧ HasLocal plan id ∧ value = localVersion plan id := by
  simp only [stagedThread, bind_ok, found_ok, PlannedChange, HasLocal, localVersion]
  constructor
  · rintro ⟨candidate, planned, answer⟩
    cases kind : candidate.kind with
    | deleted =>
        simp only [kind, pure_ok] at answer
        refine ⟨⟨candidate, planned, by simp [kind]⟩, ?_, by simp [planned, kind, answer]⟩
        intro other same kept
        rw [planned] at same
        cases same
        exact absurd kind kept
    | unchanged => simp [kind] at answer
    | added | modified | archiveChanged =>
        simp only [kind, bind_ok, found_ok, pure_ok] at answer
        obtain ⟨thread, held, rfl⟩ := answer
        refine ⟨⟨candidate, planned, by simp [kind]⟩, ?_, by simp [planned, kind, held]⟩
        intro other same _
        rw [planned] at same
        cases same
        exact ⟨thread, held⟩
  · rintro ⟨⟨candidate, planned, changed⟩, complete, rfl⟩
    refine ⟨candidate, planned, ?_⟩
    cases kind : candidate.kind with
    | deleted => simp [planned, kind, pure, Except.pure]
    | unchanged => exact absurd kind changed
    | added | modified | archiveChanged =>
        obtain ⟨thread, held⟩ := complete candidate planned (by simp [kind])
        simp [planned, kind, held, found, bind, Except.bind, pure, Except.pure]

-- One descriptor for every selected id that is not a deletion, and no other.
structure Assigned (plan : ChangePlan) (staged : StagedChangeSet) (references : List ThreadRefV4) : Prop where
  distinct : (refIds references).Nodup
  ids : ∀ id, id ∈ refIds references ↔ id ∈ staged.selectedThreadIds ∧
    ∀ candidate, plan.candidate id = some candidate → candidate.kind ≠ .deleted

def refAt (references : List ThreadRefV4) (id : String) : Option ThreadRefV4 := Keyed.find ThreadRefV4.threadId references id

theorem staged_ref_ok_iff (plan : ChangePlan) (staged : StagedChangeSet) (references : List ThreadRefV4) (selected : Refs)
    (stored : ∀ id, selected[id]? = refAt references id) (assigned : Assigned plan staged references) (id : String)
    (member : id ∈ staged.selectedThreadIds) (value : Option ThreadRefV4) :
    stagedRef plan selected id = .ok value ↔ PlannedChange plan id ∧ value = refAt references id := by
  have absent : ∀ candidate, plan.candidate id = some candidate → candidate.kind = .deleted → refAt references id = none := by
    intro candidate planned deleted
    refine (Keyed.find_none _ _ _).mpr fun listed => ?_
    exact ((assigned.ids id).mp listed).2 candidate planned deleted
  have present : ∀ candidate, plan.candidate id = some candidate → candidate.kind ≠ .deleted →
    ∃ reference, refAt references id = some reference := by
    intro candidate planned kept
    refine Option.ne_none_iff_exists'.mp fun missing => (Keyed.find_none _ _ _).mp missing ((assigned.ids id).mpr ⟨member, ?_⟩)
    intro other same
    rw [planned] at same
    cases same
    exact kept
  simp only [stagedRef, bind_ok, found_ok, PlannedChange, stored, Std.ExtTreeMap.contains_eq_isSome_getElem?]
  constructor
  · rintro ⟨candidate, planned, answer⟩
    cases kind : candidate.kind with
    | deleted =>
        simp only [kind, bind_ok, pure_ok] at answer
        obtain ⟨_, _, rfl⟩ := answer
        exact ⟨⟨candidate, planned, by simp [kind]⟩, (absent candidate planned kind).symm⟩
    | unchanged => simp [kind] at answer
    | added | modified | archiveChanged =>
        simp only [kind, bind_ok, found_ok, pure_ok] at answer
        obtain ⟨reference, held, rfl⟩ := answer
        exact ⟨⟨candidate, planned, by simp [kind]⟩, held.symm⟩
  · rintro ⟨⟨candidate, planned, changed⟩, rfl⟩
    refine ⟨candidate, planned, ?_⟩
    cases kind : candidate.kind with
    | deleted => simp [absent candidate planned kind, ensure, bind, Except.bind, pure, Except.pure]
    | unchanged => exact absurd kind changed
    | added | modified | archiveChanged =>
        obtain ⟨reference, held⟩ := present candidate planned (by simp [kind])
        simp [held, found, bind, Except.bind, pure, Except.pure]

theorem collect_refs_collects (references : List ThreadRefV4) (start : Refs) : collectRefs references start =
    Keyed.collect ThreadRefV4.threadId (fun _ => .ok ())
      (fun reference => "remote contains duplicate thread ID " ++ reference.threadId)
      references start := by
  induction references generalizing start with
  | nil => rfl
  | cons reference rest ih =>
      rw [collectRefs, Keyed.collect]
      cases held : start.contains reference.threadId with
      | true => simp only [ensure, bind, Except.bind, reduceCtorEq, if_false, if_true]
      | false => simp only [ensure, bind, Except.bind, if_true, ih, Bool.false_eq_true, if_false]

theorem folded_lookup (references : List ThreadRefV4) (start : Refs) (distinct : (refIds references).Nodup) (id : String) :
    (references.foldl (fun map reference => map.insert reference.threadId reference) start)[id]? =
      (refAt references id).or start[id]? := by
  induction references generalizing start with
  | nil => rfl
  | cons reference rest ih =>
      have parts := List.nodup_cons.mp distinct
      rw [List.foldl_cons, ih _ parts.2, Keyed.lookup_insert, refAt, refAt, Keyed.find_cons]
      by_cases same : reference.threadId = id
      · have missing : Keyed.find ThreadRefV4.threadId rest id = none := (Keyed.find_none _ _ _).mpr (same ▸ parts.1)
        rw [if_pos same.symm, if_pos same, missing]
        rfl
      · rw [if_neg (Ne.symm same), if_neg same]

section Compositions

variable (remote : List ThreadBundle) (references assigned : List ThreadRefV4) (plan : ChangePlan) (staged : StagedChangeSet)

-- What the reference composition asks of its input.
structure Composable : Prop where
  baseline : staged.baseRevisionId = plan.baseRevisionId
  distinct : (refIds references).Nodup
  planned : ∀ id ∈ staged.selectedThreadIds, PlannedChange plan id

-- What the thread composition asks on top: no blank id, and a local thread for every planned addition or edit.
structure Complete : Prop where
  named : ∀ thread ∈ remote, isBlank thread.threadId = false
  present : ∀ id ∈ staged.selectedThreadIds, HasLocal plan id

-- The local threads stand in the plan under their own ids.
def OwnIds : Prop := ∀ id ∈ staged.selectedThreadIds, ∀ thread, localVersion plan id = some thread → thread.threadId = id

theorem set_composes (threads : List ThreadBundle) (run : composeStagedThreadSet remote plan staged = .ok threads) :
    staged.baseRevisionId = plan.baseRevisionId ∧ Listed remote ∧
      (∀ id ∈ staged.selectedThreadIds, PlannedChange plan id ∧ HasLocal plan id) ∧
      ∃ final : Std.ExtTreeMap String ThreadBundle, threads = Keyed.values final ∧
        ∀ id : String, final[id]? = if id ∈ staged.selectedThreadIds then localVersion plan id else version remote id := by
  rw [composeStagedThreadSet] at run
  by_cases baseline : staged.baseRevisionId = plan.baseRevisionId
  · simp only [baseline, ne_eq, not_true_eq_false, if_false, bind_ok, pure_ok, compose_loop_replaces] at run
    obtain ⟨map, read, final, looped, rfl⟩ := run
    have answers := (Keyed.replace_all_ok_iff _ _ _).mp ⟨final, looped⟩
    simp only [Std.ExtTreeSet.mem_toList, staged_thread_ok_iff] at answers
    have settled : ∀ id ∈ staged.selectedThreadIds, PlannedChange plan id ∧ HasLocal plan id := by
      intro id member
      obtain ⟨_, planned, present, _⟩ := answers id member
      exact ⟨planned, present⟩
    refine ⟨baseline, (staged_thread_map_ok_iff remote "remote").mp ⟨map, read⟩, settled, final, rfl, fun id => ?_⟩
    have placed := Keyed.replace_all_lookup _ (localVersion plan) _ map final (fun id member =>
      (staged_thread_ok_iff plan id _).mpr ⟨(settled id (Std.ExtTreeSet.mem_toList.mp member)).1,
        (settled id (Std.ExtTreeSet.mem_toList.mp member)).2, rfl⟩) looped id
    simp only [Std.ExtTreeSet.mem_toList, staged_thread_map_lookup remote "remote" map read] at placed
    exact placed
  · simp [baseline, bind, Except.bind, throw, throwThe, MonadExceptOf.throw] at run

theorem set_composes_iff : (∃ threads, composeStagedThreadSet remote plan staged = .ok threads) ↔
    staged.baseRevisionId = plan.baseRevisionId ∧ Listed remote ∧
      ∀ id ∈ staged.selectedThreadIds, PlannedChange plan id ∧ HasLocal plan id := by
  constructor
  · rintro ⟨threads, run⟩
    obtain ⟨baseline, listed, settled, _⟩ := set_composes remote plan staged threads run
    exact ⟨baseline, listed, settled⟩
  · rintro ⟨baseline, listed, settled⟩
    obtain ⟨map, read⟩ := (staged_thread_map_ok_iff remote "remote").mpr listed
    obtain ⟨final, looped⟩ := (Keyed.replace_all_ok_iff (stagedThread plan) staged.selectedThreadIds.toList map).mpr fun id member =>
      ⟨_, (staged_thread_ok_iff plan id _).mpr ⟨(settled id (Std.ExtTreeSet.mem_toList.mp member)).1,
        (settled id (Std.ExtTreeSet.mem_toList.mp member)).2, rfl⟩⟩
    refine ⟨Keyed.values final, ?_⟩
    rw [← compose_loop_replaces] at looped
    simp only [composeStagedThreadSet, baseline, ne_eq, not_true_eq_false, if_false, bind_ok, pure_ok]
    exact ⟨map, read, final, looped, rfl⟩

variable (fits : Assigned plan staged assigned)

include fits

theorem selected_lookup (id : String) :
    ((assigned.foldl (fun map reference => map.insert reference.threadId reference) ∅ : Refs))[id]? = refAt assigned id := by
  rw [folded_lookup assigned ∅ fits.distinct, Std.ExtTreeMap.getElem?_empty, Option.or_none]

theorem refs_compose (composed : List ThreadRefV4) (run : composeStagedThreadRefs references plan staged assigned = .ok composed) :
    Composable references plan staged ∧ ∃ final : Refs, composed = Keyed.values final ∧ FiledRefs final ∧
      ∀ id : String, final[id]? = if id ∈ staged.selectedThreadIds then refAt assigned id else refAt references id := by
  simp only [composeStagedThreadRefs, bind_ok, ensure_ok, pure_ok, compose_refs_replaces, collect_refs_collects] at run
  obtain ⟨_, baseline, map, read, final, looped, rfl⟩ := run
  have distinct := ((Keyed.collect_ok_iff _ _ _ _).mp ⟨map, read⟩).2
  have answers := (Keyed.replace_all_ok_iff _ _ _).mp ⟨final, looped⟩
  have planned : ∀ id ∈ staged.selectedThreadIds, PlannedChange plan id := by
    intro id member
    obtain ⟨value, answer⟩ := answers id (Std.ExtTreeSet.mem_toList.mpr member)
    exact ((staged_ref_ok_iff plan staged assigned _ (selected_lookup assigned plan staged fits) fits id member value).mp answer).1
  have placed := Keyed.replace_all_lookup _ (refAt assigned) _ map final (fun id member =>
    (staged_ref_ok_iff plan staged assigned _ (selected_lookup assigned plan staged fits) fits id
      (Std.ExtTreeSet.mem_toList.mp member)
      _).mpr ⟨planned id (Std.ExtTreeSet.mem_toList.mp member), rfl⟩) looped
  simp only [Std.ExtTreeSet.mem_toList, Keyed.collect_lookup _ _ _ references map read] at placed
  refine ⟨⟨baseline, distinct, planned⟩, final, rfl, ?_, placed⟩
  intro id reference held
  rw [placed] at held
  by_cases member : id ∈ staged.selectedThreadIds
  · rw [if_pos member] at held
    exact Keyed.find_key _ assigned id reference held
  · rw [if_neg member] at held
    exact Keyed.find_key _ references id reference held

theorem refs_compose_iff : (∃ composed, composeStagedThreadRefs references plan staged assigned = .ok composed) ↔
    Composable references plan staged := by
  constructor
  · rintro ⟨composed, run⟩
    exact (refs_compose references assigned plan staged fits composed run).1
  · intro composable
    obtain ⟨map, read⟩ := (Keyed.collect_ok_iff ThreadRefV4.threadId (fun _ => .ok ())
      (fun reference => "remote contains duplicate thread ID " ++ reference.threadId) references).mpr ⟨fun _ _ =>
        rfl, composable.distinct⟩
    have stored := selected_lookup assigned plan staged fits
    simp only [composeStagedThreadRefs, bind_ok, ensure_ok, pure_ok, compose_refs_replaces, collect_refs_collects]
    generalize (assigned.foldl (fun map reference => map.insert reference.threadId reference) ∅ : Refs) = selected at stored ⊢
    obtain ⟨final, looped⟩ := (Keyed.replace_all_ok_iff (stagedRef plan selected) staged.selectedThreadIds.toList map).mpr
      fun id member => ⟨refAt assigned id, (staged_ref_ok_iff plan staged assigned selected stored fits id
        (Std.ExtTreeSet.mem_toList.mp member) _).mpr ⟨composable.planned id (Std.ExtTreeSet.mem_toList.mp member), rfl⟩⟩
    exact ⟨Keyed.values final, (), composable.baseline, map, read, final, looped, rfl⟩

theorem refs_composed (composed : List ThreadRefV4) (run : composeStagedThreadRefs references plan staged assigned = .ok composed)
    (id : String) : refAt composed id = if id ∈ staged.selectedThreadIds then refAt assigned id else refAt references id := by
  obtain ⟨_, final, rfl, filed, placed⟩ := refs_compose references assigned plan staged fits composed run
  exact (Keyed.find_values ThreadRefV4.threadId final filed id).trans (placed id)

theorem present_alike (id : String) (member : id ∈ staged.selectedThreadIds) (planned : PlannedChange plan id)
    (present : HasLocal plan id) : (refAt assigned id).isSome = (localVersion plan id).isSome := by
  obtain ⟨candidate, known, _⟩ := planned
  rw [localVersion, known, Option.bind_some]
  by_cases deleted : candidate.kind = .deleted
  · have missing : refAt assigned id = none :=
      (Keyed.find_none _ _ _).mpr fun listed => ((fits.ids id).mp listed).2 candidate known deleted
    rw [if_pos deleted, missing]
    rfl
  · obtain ⟨thread, held⟩ := present candidate known deleted
    have listed : id ∈ refIds assigned := by
      refine (fits.ids id).mpr ⟨member, fun other same => ?_⟩
      rw [known] at same
      cases same
      exact deleted
    rw [if_neg deleted, held]
    exact Option.isSome_iff_ne_none.mpr fun missing => (Keyed.find_none _ _ _).mp missing listed

omit fits in
theorem described_alike (described : refIds references = threadIds remote) (id : String) :
    (refAt references id).isSome = (version remote id).isSome := by
  rw [Bool.eq_iff_iff, Option.isSome_iff_ne_none, Option.isSome_iff_ne_none]
  refine not_congr ?_
  rw [refAt, Keyed.find_none, version_mem, ← described]
  rfl

variable (described : refIds references = threadIds remote)

include described

-- The two compositions leave the same ids, and the thread list shows them when its threads are filed under their own ids.
theorem same_ids_iff (composed : List ThreadRefV4) (threads : List ThreadBundle)
    (refs : composeStagedThreadRefs references plan staged assigned = .ok composed)
    (set : composeStagedThreadSet remote plan staged = .ok threads) : refIds composed = threadIds threads ↔ OwnIds plan staged := by
  obtain ⟨_, final, rfl, filed, placed⟩ := refs_compose references assigned plan staged fits composed refs
  obtain ⟨_, _, settled, shown, rfl, stored⟩ := set_composes remote plan staged threads set
  have keys : final.keys = shown.keys := by
    refine Keyed.keys_congr final shown fun id => ?_
    rw [placed, stored]
    by_cases member : id ∈ staged.selectedThreadIds
    · rw [if_pos member, if_pos member]
      exact present_alike assigned plan staged fits id member (settled id member).1 (settled id member).2
    · rw [if_neg member, if_neg member]
      exact described_alike remote references described id
  rw [refIds, Keyed.values_keys ThreadRefV4.threadId final filed, keys]
  constructor
  · intro same id member thread held
    rw [threadIds, Keyed.values, List.map_map, ← Std.ExtTreeMap.map_fst_toList_eq_keys] at same
    have there : shown[id]? = some thread := by rw [stored, if_pos member, held]
    exact (List.map_inj_left.mp same (id, thread) (Std.ExtTreeMap.mem_toList_iff_getElem?_eq_some.mpr there)).symm
  · intro own
    refine (Keyed.values_keys ThreadBundle.threadId shown fun id thread held => ?_).symm
    rw [stored] at held
    by_cases member : id ∈ staged.selectedThreadIds
    · rw [if_pos member] at held
      exact own id member thread held
    · rw [if_neg member] at held
      exact Keyed.find_key _ remote id thread held

omit fits described in
-- compose_staged_thread_refs against compose_staged_thread_set on one input.
structure Refines : Prop where
  succeeds : (∃ composed, composeStagedThreadRefs references plan staged assigned = .ok composed) ↔
    ∃ threads, composeStagedThreadSet remote plan staged = .ok threads
  ids : ∀ composed threads, composeStagedThreadRefs references plan staged assigned = .ok composed →
    composeStagedThreadSet remote plan staged = .ok threads → refIds composed = threadIds threads
  carries : ∀ composed, composeStagedThreadRefs references plan staged assigned = .ok composed →
    ∀ id, refAt composed id = if id ∈ staged.selectedThreadIds then refAt assigned id else refAt references id

theorem refines_iff : Refines remote references assigned plan staged ↔
    (Composable references plan staged → Complete remote plan staged ∧ OwnIds plan staged) := by
  constructor
  · intro refines composable
    obtain ⟨composed, refs⟩ := (refs_compose_iff references assigned plan staged fits).mpr composable
    obtain ⟨threads, set⟩ := refines.succeeds.mp ⟨composed, refs⟩
    obtain ⟨_, listed, settled, _⟩ := set_composes remote plan staged threads set
    exact ⟨⟨listed.1, fun id member => (settled id member).2⟩,
      (same_ids_iff remote references assigned plan staged fits described composed threads refs set).mp
        (refines.ids composed threads refs set)⟩
  · intro agrees
    have same : Composable references plan staged ↔ ∃ threads, composeStagedThreadSet remote plan staged = .ok threads := by
      rw [set_composes_iff]
      constructor
      · intro composable
        obtain ⟨complete, _⟩ := agrees composable
        exact ⟨composable.baseline, ⟨complete.named, described ▸ composable.distinct⟩,
          fun id member => ⟨composable.planned id member, complete.present id member⟩⟩
      · rintro ⟨baseline, listed, settled⟩
        exact ⟨baseline, described ▸ listed.2, fun id member => (settled id member).1⟩
    have refs := refs_compose_iff references assigned plan staged fits
    refine ⟨refs.trans same, fun composed threads run set => ?_, refs_composed references assigned plan staged fits⟩
    exact (same_ids_iff remote references assigned plan staged fits described composed threads run set).mpr
      (agrees (refs.mp ⟨composed, run⟩)).2

end Compositions

-- build_change_plan files every local thread under its id, and gives one to every change but a deletion.
theorem built_plan_complete (lib : Primitives) (revision : Option String) (baseline workspace : List ThreadBundle) (plan : ChangePlan)
    (built : buildChangePlan lib revision baseline workspace = .ok plan) (id : String) (planned : PlannedChange plan id) :
    HasLocal plan id ∧ ∀ thread, localVersion plan id = some thread → thread.threadId = id := by
  have shape := build_change_plan_cases lib revision baseline workspace
  rw [built] at shape
  obtain ⟨_, rfl⟩ := shape
  obtain ⟨candidate, known, changed⟩ := planned
  have form : candidate = changeCandidate lib id (version baseline id) (version workspace id) := by
    rw [plan_candidate] at known
    split at known
    · exact (Option.some.inj known).symm
    · cases known
  have deleted : candidate.kind = .deleted ↔ version workspace id = none := by
    rw [form] at changed ⊢
    exact change_kind_deleted lib _ _ changed
  have held : candidate.localThread = version workspace id := by rw [form]; rfl
  constructor
  · intro other same kept
    rw [known] at same
    cases same
    rw [held]
    exact Option.ne_none_iff_exists'.mp fun missing => kept (deleted.mpr missing)
  · intro thread present
    rw [localVersion, known, Option.bind_some, held] at present
    split at present
    · cases present
    · exact version_filed workspace id thread present

-- The two compositions agree wherever the reference one asks no less than the thread
-- one, and so on every checked remote and every plan that build_change_plan makes.
theorem staged_refs_refine (remote : List ThreadBundle) (references assigned : List ThreadRefV4) (plan : ChangePlan)
    (staged : StagedChangeSet) (described : refIds references = threadIds remote) (fits : Assigned plan staged assigned) :
    (Refines remote references assigned plan staged ↔
      (Composable references plan staged → Complete remote plan staged ∧ OwnIds plan staged)) ∧
    ((∀ thread ∈ remote, isBlank thread.threadId = false) →
      (∃ lib revision baseline workspace, buildChangePlan lib revision baseline workspace = .ok plan) →
        Refines remote references assigned plan staged) := by
  have exactly := refines_iff remote references assigned plan staged fits described
  refine ⟨exactly, fun named built => exactly.mpr fun composable => ?_⟩
  obtain ⟨lib, revision, baseline, workspace, built⟩ := built
  have whole := fun id member => built_plan_complete lib revision baseline workspace plan built id (composable.planned id member)
  exact ⟨⟨named, fun id member => (whole id member).1⟩, fun id member => (whole id member).2⟩

namespace StagedSample

def thread (id : String) : ThreadBundle := { ResolutionSample.titled "title" with threadId := id }

def reference (id : String) : ThreadRefV4 := { threadId := id, descriptorSha256 := "sha256:00" }

def plan : ChangePlan := changePlan sampleLib none [] [thread "t"]

def staged : StagedChangeSet := { baseRevisionId := none, selectedThreadIds := (∅ : Std.ExtTreeSet String).insert "t" }

theorem selected (id : String) : id ∈ staged.selectedThreadIds ↔ id = "t" := by
  rw [staged, Std.ExtTreeSet.mem_insert, Std.LawfulEqOrd.compare_eq_iff_eq]
  simp [eq_comm]

theorem planned : plan.candidate "t" = some (changeCandidate sampleLib "t" none (some (thread "t"))) := by
  rw [plan, plan_candidate, if_pos ((mem_plan_ids _ _ _).mpr (.inr (List.mem_singleton.mpr rfl)))]
  simp [version, Keyed.find, thread]

theorem fits : Assigned plan staged [reference "t"] := by
  refine ⟨List.nodup_singleton _, fun id => ?_⟩
  rw [selected]
  constructor
  · intro listed
    have same : id = "t" := List.mem_singleton.mp listed
    rw [same]
    refine ⟨rfl, fun candidate known => ?_⟩
    rw [planned] at known
    cases known
    exact ChangeKind.noConfusion
  · rintro ⟨rfl, _⟩
    exact List.mem_singleton.mpr rfl

theorem built : buildChangePlan sampleLib none [] [thread "t"] = .ok plan := by
  have shape := build_change_plan_cases sampleLib none [] [thread "t"]
  cases outcome : buildChangePlan sampleLib none [] [thread "t"] with
  | error message =>
      rw [outcome] at shape
      refine absurd ⟨⟨fun _ member => absurd member List.not_mem_nil, List.nodup_nil⟩, ?_, List.nodup_singleton _⟩ shape
      intro one member
      rw [List.mem_singleton.mp member]
      decide
  | ok plan =>
      rw [outcome] at shape
      exact congrArg Except.ok shape.2

end StagedSample

theorem staged_refs_refine_added :
    Refines [StagedSample.thread "r"] [StagedSample.reference "r"] [StagedSample.reference "t"] StagedSample.plan
      StagedSample.staged := by
  refine (staged_refs_refine [StagedSample.thread "r"] [StagedSample.reference "r"] [StagedSample.reference "t"] StagedSample.plan
    StagedSample.staged rfl StagedSample.fits).2 ?_ ⟨_, _, _, _, StagedSample.built⟩
  intro one member
  rw [List.mem_singleton.mp member]
  decide

-- A blank id is refused by the thread composition only.
theorem staged_refs_blank_id : ∃ remote references plan staged, refIds references = threadIds remote ∧ Assigned plan staged [] ∧
    composeStagedThreadRefs references plan staged [] = .ok references ∧
    composeStagedThreadSet remote plan staged = .error "remote contains an empty thread ID" := by
  refine ⟨[StagedSample.thread ""], [StagedSample.reference ""], ⟨none, []⟩, ⟨none, ∅⟩, rfl, ⟨List.nodup_nil, fun id => ?_⟩, ?_, ?_⟩
  · simp [refIds]
  · rfl
  · rfl

end SessionSync.Sync
