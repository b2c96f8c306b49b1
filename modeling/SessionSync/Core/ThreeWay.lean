import SessionSync.Core.Merge

set_option autoImplicit false

namespace SessionSync.Core

def threadIds (threads : List ThreadBundle) : List String := threads.map ThreadBundle.threadId

def version (threads : List ThreadBundle) (id : String) : Option ThreadBundle :=
  Keyed.find ThreadBundle.threadId threads id

-- Two lists hold the same version of an id, absence being a version.
def SameVersion (lib : Primitives) (left right : List ThreadBundle) (id : String) : Prop :=
  versionHash lib (version left id) = versionHash lib (version right id)

def conflictIds (outcome : ThreadMergeOutcome) : List String := outcome.conflicts.map ThreadConflict.threadId

-- A side that deleted the thread decides the kind.
def Kind (loc remote : Option ThreadBundle) (kind : ThreadConflictKind) : Prop :=
  (kind = .localDeletedRemoteModified ↔ loc = none) ∧ (kind = .remoteDeletedLocalModified ↔ remote = none)

-- The merge law for one id, in terms of the three lists and the outcome only.
structure MergesThread (lib : Primitives) (base loc remote : List ThreadBundle) (outcome : ThreadMergeOutcome)
    (id : String) : Prop where
  untouched : SameVersion lib loc base id → SameVersion lib remote base id →
    version outcome.threads id = version loc id ∧ SameVersion lib outcome.threads base id ∧ id ∉ conflictIds outcome
  localChange : ¬ SameVersion lib loc base id → SameVersion lib remote base id →
    version outcome.threads id = version loc id ∧ id ∉ conflictIds outcome
  remoteChange : SameVersion lib loc base id → ¬ SameVersion lib remote base id →
    version outcome.threads id = version remote id ∧ id ∉ conflictIds outcome
  agreement : ¬ SameVersion lib loc base id → ¬ SameVersion lib remote base id → SameVersion lib loc remote id →
    version outcome.threads id = version loc id ∧ id ∉ conflictIds outcome
  disagreement : ¬ SameVersion lib loc base id → ¬ SameVersion lib remote base id → ¬ SameVersion lib loc remote id →
    version outcome.threads id = none ∧
      ∃ conflict, outcome.conflicts.filter (fun conflict => conflict.threadId = id) = [conflict] ∧
        Kind (version loc id) (version remote id) conflict.kind

-- What two runs with exchanged sides share.
structure Mirrored (lib : Primitives) (left right : ThreadMergeOutcome) : Prop where
  conflicts : conflictIds left = conflictIds right
  ids : threadIds left.threads = threadIds right.threads
  hashes : left.threads.map (semanticThreadHash lib) = right.threads.map (semanticThreadHash lib)

theorem thread_map_ok_iff (threads : List ThreadBundle) :
    (∃ map, threadMap threads = .ok map) ↔ (threadIds threads).Nodup := by
  rw [threadMap, Keyed.collect_ok_iff]
  exact and_iff_right fun _ _ => rfl

theorem thread_map_lookup (threads : List ThreadBundle) (map : Std.ExtTreeMap String ThreadBundle)
    (read : threadMap threads = .ok map) (id : String) : map[id]? = version threads id :=
  Keyed.collect_lookup _ _ _ threads map read id

theorem version_mem (threads : List ThreadBundle) (id : String) : version threads id = none ↔ id ∉ threadIds threads :=
  Keyed.find_none _ threads id

theorem lookup_keys (threads : List ThreadBundle) (map : Std.ExtTreeMap String ThreadBundle)
    (lookup : ∀ id, map[id]? = version threads id) (id : String) : id ∈ map.keys ↔ id ∈ threadIds threads := by
  rw [Std.ExtTreeMap.mem_keys, Std.ExtTreeMap.mem_iff_isSome_getElem?, lookup, Option.isSome_iff_ne_none, Ne,
    version_mem, not_not]

theorem merge_loop (choice : String → MergeChoice) (ids : List String) (outcome : ThreadMergeOutcome) :
    mergeLoop choice ids outcome =
      { threads := outcome.threads ++ ids.filterMap fun id => (choice id).thread
        conflicts := outcome.conflicts ++ ids.filterMap fun id => (choice id).conflict? } := by
  induction ids generalizing outcome with
  | nil => simp only [mergeLoop, List.filterMap_nil, List.append_nil]
  | cons id rest ih =>
      have push : ∀ {α : Type} (value : Option α) (tail : List α), value.toList ++ tail = value.elim tail (· :: tail) := by
        intro α value tail
        cases value <;> rfl
      simp only [mergeLoop, ih, List.append_assoc, push, List.filterMap_cons]
      cases (choice id) with
      | keep kept => cases kept <;> rfl
      | disagree conflict => rfl

section Choice

variable (lib : Primitives) (id : String) (base loc remote : Option ThreadBundle)

theorem merge_thread_untouched (kept : versionHash lib loc = versionHash lib base)
    (same : versionHash lib remote = versionHash lib base) : mergeThread lib id base loc remote = .keep loc := by
  have first : loc.or remote = loc := by
    cases loc with
    | some thread => rfl
    | none => exact (version_hash_none lib remote).mp (same.trans kept.symm)
  simp only [mergeThread, semantic_option_eq, kept, same, decide_true, Bool.not_true, first]

theorem merge_thread_local (changed : versionHash lib loc ≠ versionHash lib base)
    (same : versionHash lib remote = versionHash lib base) : mergeThread lib id base loc remote = .keep loc := by
  simp only [mergeThread, semantic_option_eq, changed, same, decide_true, decide_false, Bool.not_true, Bool.not_false]

theorem merge_thread_remote (same : versionHash lib loc = versionHash lib base)
    (changed : versionHash lib remote ≠ versionHash lib base) : mergeThread lib id base loc remote = .keep remote := by
  simp only [mergeThread, semantic_option_eq, changed, same, decide_true, decide_false, Bool.not_true, Bool.not_false]

theorem merge_thread_both (changed : versionHash lib loc ≠ versionHash lib base)
    (changedRemote : versionHash lib remote ≠ versionHash lib base) :
    mergeThread lib id base loc remote =
      if versionHash lib loc = versionHash lib remote then .keep loc
      else .disagree (threadConflict lib id base loc remote) := by
  simp only [mergeThread, semantic_option_eq, changed, changedRemote, decide_false, Bool.not_false, decide_eq_true_eq]

theorem merge_thread_cases : mergeThread lib id base loc remote = .keep loc ∨ mergeThread lib id base loc remote = .keep remote ∨
    mergeThread lib id base loc remote = .disagree (threadConflict lib id base loc remote) := by
  by_cases same : versionHash lib loc = versionHash lib base
  · by_cases sameRemote : versionHash lib remote = versionHash lib base
    · exact .inl (merge_thread_untouched lib id base loc remote same sameRemote)
    · exact .inr (.inl (merge_thread_remote lib id base loc remote same sameRemote))
  · by_cases sameRemote : versionHash lib remote = versionHash lib base
    · exact .inl (merge_thread_local lib id base loc remote same sameRemote)
    · rw [merge_thread_both lib id base loc remote same sameRemote]
      by_cases agree : versionHash lib loc = versionHash lib remote
      · exact .inl (if_pos agree)
      · exact .inr (.inr (if_neg agree))

-- Exchanging the sides may take the other of two equal versions, and it turns a
-- conflict into the conflict of the exchanged sides.
theorem merge_thread_swap :
    versionHash lib (mergeThread lib id base loc remote).thread = versionHash lib (mergeThread lib id base remote loc).thread ∧
      (mergeThread lib id base loc remote).conflict?.isSome = (mergeThread lib id base remote loc).conflict?.isSome := by
  by_cases same : versionHash lib loc = versionHash lib base
  · by_cases sameRemote : versionHash lib remote = versionHash lib base
    · rw [merge_thread_untouched lib id base loc remote same sameRemote,
        merge_thread_untouched lib id base remote loc sameRemote same]
      exact ⟨same.trans sameRemote.symm, rfl⟩
    · rw [merge_thread_remote lib id base loc remote same sameRemote, merge_thread_local lib id base remote loc sameRemote same]
      exact ⟨rfl, rfl⟩
  · by_cases sameRemote : versionHash lib remote = versionHash lib base
    · rw [merge_thread_local lib id base loc remote same sameRemote, merge_thread_remote lib id base remote loc sameRemote same]
      exact ⟨rfl, rfl⟩
    · rw [merge_thread_both lib id base loc remote same sameRemote, merge_thread_both lib id base remote loc sameRemote same]
      by_cases agree : versionHash lib loc = versionHash lib remote
      · rw [if_pos agree, if_pos agree.symm]
        exact ⟨agree, rfl⟩
      · rw [if_neg agree, if_neg (Ne.symm agree)]
        exact ⟨rfl, rfl⟩

theorem conflict_kind (differ : versionHash lib loc ≠ versionHash lib remote) : Kind loc remote (conflictKind loc remote) := by
  cases loc with
  | none =>
      cases remote with
      | none => exact absurd rfl differ
      | some thread => exact ⟨⟨fun _ => rfl, fun _ => rfl⟩, ⟨nofun, nofun⟩⟩
  | some thread =>
      cases remote with
      | none => exact ⟨⟨nofun, nofun⟩, ⟨fun _ => rfl, fun _ => rfl⟩⟩
      | some other => exact ⟨⟨nofun, nofun⟩, ⟨nofun, nofun⟩⟩

end Choice

section Outcome

variable (lib : Primitives) (base loc remote : List ThreadBundle)

def choiceFor (id : String) : MergeChoice := mergeThread lib id (version base id) (version loc id) (version remote id)

def allIds : List String := Keyed.sortedKeys (threadIds base ++ threadIds loc ++ threadIds remote)

-- The outcome read off the lists, with no map and no loop.
def merged : ThreadMergeOutcome where
  threads := (allIds base loc remote).filterMap fun id => (choiceFor lib base loc remote id).thread
  conflicts := (allIds base loc remote).filterMap fun id => (choiceFor lib base loc remote id).conflict?

theorem choice_thread_answers :
    Keyed.Answers ThreadBundle.threadId fun id => (choiceFor lib base loc remote id).thread := by
  intro id thread chosen
  have cases := merge_thread_cases lib id (version base id) (version loc id) (version remote id)
  dsimp only [choiceFor] at chosen
  rcases cases with kept | kept | kept
  · rw [kept] at chosen
    exact Keyed.find_key _ loc id thread chosen
  · rw [kept] at chosen
    exact Keyed.find_key _ remote id thread chosen
  · rw [kept] at chosen
    cases chosen

theorem choice_conflict_answers :
    Keyed.Answers ThreadConflict.threadId fun id => (choiceFor lib base loc remote id).conflict? := by
  intro id conflict chosen
  have cases := merge_thread_cases lib id (version base id) (version loc id) (version remote id)
  dsimp only [choiceFor] at chosen
  rcases cases with kept | kept | kept
  · rw [kept] at chosen
    cases chosen
  · rw [kept] at chosen
    cases chosen
  · rw [kept] at chosen
    cases chosen
    rfl

theorem mem_all_ids (id : String) :
    id ∈ allIds base loc remote ↔ id ∈ threadIds base ∨ id ∈ threadIds loc ∨ id ∈ threadIds remote := by
  rw [allIds, Keyed.mem_sorted_keys, List.mem_append, List.mem_append, or_assoc]

theorem all_ids_sorted : (allIds base loc remote).Pairwise fun a b => a < b := by
  refine (Keyed.sorted_keys_ordered _).imp fun before => ?_
  exact compareOfLessAndEq_eq_lt.mp before

theorem all_ids_swap : allIds base remote loc = allIds base loc remote := by
  refine Keyed.sorted_keys_congr _ _ fun id => ?_
  simp only [List.mem_append]
  tauto

theorem choice_outside (id : String) (outside : id ∉ allIds base loc remote) :
    choiceFor lib base loc remote id = .keep none := by
  rw [mem_all_ids, not_or, not_or] at outside
  have absentBase := (version_mem base id).mpr outside.1
  have absentLocal := (version_mem loc id).mpr outside.2.1
  have absentRemote := (version_mem remote id).mpr outside.2.2
  rw [choiceFor, absentBase, absentLocal, absentRemote]
  exact merge_thread_untouched lib id none none none rfl rfl

theorem merged_version (id : String) :
    version (merged lib base loc remote).threads id = (choiceFor lib base loc remote id).thread := by
  have found := Keyed.find_chosen _ _ (choice_thread_answers lib base loc remote) (allIds base loc remote) id
  by_cases member : id ∈ allIds base loc remote
  · rw [if_pos member] at found
    exact found
  · rw [if_neg member] at found
    rw [choice_outside lib base loc remote id member]
    exact found

theorem merged_conflict (id : String) :
    (merged lib base loc remote).conflicts.filter (fun conflict => conflict.threadId = id) =
      (choiceFor lib base loc remote id).conflict?.toList := by
  have answers := choice_conflict_answers lib base loc remote
  have ordered := Keyed.chosen_pairwise _ _ answers _ _ (all_ids_sorted base loc remote)
  have distinct : ((merged lib base loc remote).conflicts.map ThreadConflict.threadId).Nodup := by
    refine (List.pairwise_map.mpr ordered).imp ?_
    intro a b before same
    exact String.lt_irrefl a (same ▸ before)
  rw [Keyed.filter_key _ _ distinct]
  have found := Keyed.find_chosen _ _ answers (allIds base loc remote) id
  by_cases member : id ∈ allIds base loc remote
  · rw [if_pos member] at found
    exact congrArg Option.toList found
  · rw [if_neg member] at found
    rw [choice_outside lib base loc remote id member]
    exact congrArg Option.toList found

theorem not_conflicting (id : String) (kept : Option ThreadBundle)
    (choice : choiceFor lib base loc remote id = .keep kept) : id ∉ conflictIds (merged lib base loc remote) := by
  intro reported
  obtain ⟨conflict, member, same⟩ := List.mem_map.mp reported
  have listed : conflict ∈ (merged lib base loc remote).conflicts.filter fun conflict => conflict.threadId = id :=
    List.mem_filter.mpr ⟨member, decide_eq_true same⟩
  rw [merged_conflict, choice] at listed
  cases listed

theorem merged_thread (id : String) : MergesThread lib base loc remote (merged lib base loc remote) id := by
  have kept := merged_version lib base loc remote id
  have quiet := not_conflicting lib base loc remote id
  have reported := merged_conflict lib base loc remote id
  refine ⟨fun same sameRemote => ?_, fun changed sameRemote => ?_, fun same changedRemote => ?_,
    fun changed changedRemote agree => ?_, fun changed changedRemote differ => ?_⟩
  · have choice := merge_thread_untouched lib id _ _ _ same sameRemote
    rw [choiceFor, choice] at kept
    exact ⟨kept, (congrArg (versionHash lib) kept).trans same, quiet _ choice⟩
  · have choice := merge_thread_local lib id _ _ _ changed sameRemote
    rw [choiceFor, choice] at kept
    exact ⟨kept, quiet _ choice⟩
  · have choice := merge_thread_remote lib id _ _ _ same changedRemote
    rw [choiceFor, choice] at kept
    exact ⟨kept, quiet _ choice⟩
  · have choice := merge_thread_both lib id _ _ _ changed changedRemote
    rw [if_pos (show versionHash lib (version loc id) = _ from agree)] at choice
    rw [choiceFor, choice] at kept
    exact ⟨kept, quiet _ choice⟩
  · have choice := merge_thread_both lib id _ _ _ changed changedRemote
    rw [if_neg (show ¬ versionHash lib (version loc id) = _ from differ)] at choice
    rw [choiceFor, choice] at kept reported
    exact ⟨kept, _, reported, conflict_kind lib _ _ differ⟩

theorem merged_sorted : (merged lib base loc remote).threads.Pairwise fun a b => a.threadId < b.threadId :=
  Keyed.chosen_pairwise _ _ (choice_thread_answers lib base loc remote) _ _ (all_ids_sorted base loc remote)

theorem merged_disjoint (id : String) (reported : id ∈ conflictIds (merged lib base loc remote)) :
    id ∉ threadIds (merged lib base loc remote).threads := by
  rw [← version_mem, merged_version]
  cases choice : choiceFor lib base loc remote id with
  | keep kept => exact absurd reported (not_conflicting lib base loc remote id kept choice)
  | disagree conflict => rfl

theorem merged_mirrored : Mirrored lib (merged lib base loc remote) (merged lib base remote loc) := by
  have swap := fun id => merge_thread_swap lib id (version base id) (version loc id) (version remote id)
  refine ⟨?_, ?_, ?_⟩
  · simp only [conflictIds, merged, all_ids_swap base loc remote]
    exact Keyed.chosen_keys_congr _ _ _ (choice_conflict_answers lib base loc remote)
      (choice_conflict_answers lib base remote loc) (fun id => (swap id).2) _
  · simp only [threadIds, merged, all_ids_swap base loc remote]
    refine Keyed.chosen_keys_congr _ _ _ (choice_thread_answers lib base loc remote)
      (choice_thread_answers lib base remote loc) (fun id => ?_) _
    have present := congrArg Option.isSome (swap id).1
    rwa [versionHash, versionHash, Option.isSome_map, Option.isSome_map] at present
  · simp only [merged, all_ids_swap base loc remote]
    exact Keyed.map_chosen_congr _ _ _ _ fun id => (swap id).1

theorem merge_maps (baseMap locMap remoteMap : Std.ExtTreeMap String ThreadBundle) (readBase : threadMap base = .ok baseMap)
    (readLocal : threadMap loc = .ok locMap) (readRemote : threadMap remote = .ok remoteMap) :
    mergeMaps lib baseMap locMap remoteMap = merged lib base loc remote := by
  have baseAt := thread_map_lookup base baseMap readBase
  have localAt := thread_map_lookup loc locMap readLocal
  have remoteAt := thread_map_lookup remote remoteMap readRemote
  have ids : unionIds baseMap locMap remoteMap = allIds base loc remote := by
    refine Keyed.sorted_keys_congr _ _ fun id => ?_
    simp only [List.mem_append, lookup_keys base baseMap baseAt, lookup_keys loc locMap localAt,
      lookup_keys remote remoteMap remoteAt]
  have sorted : (merged lib base loc remote).threads.insertionSort (fun a b => a.threadId ≤ b.threadId) =
      (merged lib base loc remote).threads := by
    refine List.Pairwise.insertionSort_eq ((merged_sorted lib base loc remote).imp fun before => ?_)
    exact String.not_lt.mp (String.lt_asymm before)
  have looped : mergeLoop (fun id => mergeThread lib id baseMap[id]? locMap[id]? remoteMap[id]?)
      (unionIds baseMap locMap remoteMap) ⟨[], []⟩ = merged lib base loc remote := by
    rw [merge_loop, ids]
    simp only [List.nil_append, baseAt, localAt, remoteAt]
    rfl
  rw [mergeMaps, looped, sorted]

end Outcome

-- merge_thread_sets as a whole: it fails on a repeated id and on nothing else, and
-- its outcome is the three-way merge of every id.
theorem merge_thread_sets_three_way (lib : Primitives) (base loc remote : List ThreadBundle) :
    match mergeThreadSets lib base loc remote with
    | .error _ => ¬ ((threadIds base).Nodup ∧ (threadIds loc).Nodup ∧ (threadIds remote).Nodup)
    | .ok outcome =>
        ((threadIds base).Nodup ∧ (threadIds loc).Nodup ∧ (threadIds remote).Nodup) ∧
          (∀ id, MergesThread lib base loc remote outcome id) ∧
          outcome.threads.Pairwise (fun a b => a.threadId < b.threadId) ∧
          (∀ id ∈ conflictIds outcome, id ∉ threadIds outcome.threads) ∧
          ∃ swapped, mergeThreadSets lib base remote loc = .ok swapped ∧ Mirrored lib outcome swapped := by
  have distinctBase := thread_map_ok_iff base
  have distinctLocal := thread_map_ok_iff loc
  have distinctRemote := thread_map_ok_iff remote
  cases readBase : threadMap base with
  | error message =>
      rw [readBase] at distinctBase
      simp only [mergeThreadSets, readBase, bind, Except.bind, ← distinctBase]
      rintro ⟨⟨_, impossible⟩, _⟩
      cases impossible
  | ok baseMap =>
      cases readLocal : threadMap loc with
      | error message =>
          rw [readLocal] at distinctLocal
          simp only [mergeThreadSets, readBase, readLocal, bind, Except.bind, ← distinctLocal]
          rintro ⟨_, ⟨_, impossible⟩, _⟩
          cases impossible
      | ok locMap =>
          cases readRemote : threadMap remote with
          | error message =>
              rw [readRemote] at distinctRemote
              simp only [mergeThreadSets, readBase, readLocal, readRemote, bind, Except.bind, ← distinctRemote]
              rintro ⟨_, _, _, impossible⟩
              cases impossible
          | ok remoteMap =>
              have outcome := merge_maps lib base loc remote baseMap locMap remoteMap readBase readLocal readRemote
              have swapped := merge_maps lib base remote loc baseMap remoteMap locMap readBase readRemote readLocal
              simp only [mergeThreadSets, readBase, readLocal, readRemote, bind, Except.bind, pure, Except.pure, outcome, swapped]
              exact ⟨⟨distinctBase.mp ⟨_, readBase⟩, distinctLocal.mp ⟨_, readLocal⟩, distinctRemote.mp ⟨_, readRemote⟩⟩,
                merged_thread lib base loc remote, merged_sorted lib base loc remote, merged_disjoint lib base loc remote,
                _, rfl, merged_mirrored lib base loc remote⟩

end SessionSync.Core
