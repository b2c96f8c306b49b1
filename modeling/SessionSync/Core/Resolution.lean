import SessionSync.Core.ThreeWay
import SessionSync.Core.Sha256
import SessionSync.Lib.Checked

set_option autoImplicit false

namespace SessionSync.Core

open Checked

inductive ThreadResolutionChoice where
  | loc
  | remote
deriving DecidableEq, Repr

structure ThreadConflictResolution where
  conflictId : String
  threadId : String
  choice : ThreadResolutionChoice
deriving DecidableEq, Repr

def ThreadResolutionChoice.side {α : Type} (loc remote : α) : ThreadResolutionChoice → α
  | .loc => loc
  | .remote => remote

def selectResolutions (resolutions : List ThreadConflictResolution) :
    Except String (Std.ExtTreeMap String ThreadConflictResolution) :=
  Keyed.collect ThreadConflictResolution.threadId (fun _ => .ok ())
    (fun resolution => "duplicate conflict resolution for thread " ++ resolution.threadId) resolutions ∅

def resolveLoop (selected : Std.ExtTreeMap String ThreadConflictResolution) (loc remote : Std.ExtTreeMap String ThreadBundle) :
    List ThreadConflict → List ThreadBundle → Except String (List ThreadBundle)
  | [], threads => .ok threads
  | conflict :: rest, threads => do
      let resolution ← found selected[conflict.threadId]?
        ("conflict set changed: missing resolution for thread " ++ conflict.threadId)
      ensure (resolution.conflictId = conflict.conflictId)
        ("conflict " ++ conflict.threadId ++ " changed after it was displayed; pull again before resolving")
      let thread := resolution.choice.side loc[conflict.threadId]? remote[conflict.threadId]?
      resolveLoop selected loc remote rest (threads ++ thread.toList)

def resolveThreadSets (lib : Primitives) (base loc remote : List ThreadBundle) (resolutions : List ThreadConflictResolution) :
    Except String (List ThreadBundle) := do
  let outcome ← mergeThreadSets lib base loc remote
  let loc ← threadMap loc
  let remote ← threadMap remote
  let selected ← selectResolutions resolutions
  ensure (selected.size = outcome.conflicts.length)
    ("conflict set changed: expected " ++ toString outcome.conflicts.length ++ " resolution(s), received " ++ toString selected.size)
  let threads ← resolveLoop selected loc remote outcome.conflicts outcome.threads
  return threads.insertionSort fun a b => a.threadId ≤ b.threadId

def resolvedIds (resolutions : List ThreadConflictResolution) : List String :=
  resolutions.map ThreadConflictResolution.threadId

-- One resolution for every conflict and no other, made for the conflict as it stands.
structure Resolves (outcome : ThreadMergeOutcome) (resolutions : List ThreadConflictResolution) : Prop where
  distinct : (resolvedIds resolutions).Nodup
  covers : ∀ id, id ∈ resolvedIds resolutions ↔ id ∈ conflictIds outcome
  current : ∀ resolution ∈ resolutions, ∀ conflict ∈ outcome.conflicts, resolution.threadId = conflict.threadId →
    resolution.conflictId = conflict.conflictId

-- The side a list of resolutions takes of a conflict; a deleted thread leaves nothing.
def chosenSide (loc remote : List ThreadBundle) (resolutions : List ThreadConflictResolution) (conflict : ThreadConflict) :
    Option ThreadBundle :=
  (Keyed.find ThreadConflictResolution.threadId resolutions conflict.threadId).bind fun resolution =>
    resolution.choice.side (version loc conflict.threadId) (version remote conflict.threadId)

section Loop

variable (loc remote : List ThreadBundle) (locMap remoteMap : Std.ExtTreeMap String ThreadBundle)
  (localAt : ∀ id, locMap[id]? = version loc id) (remoteAt : ∀ id, remoteMap[id]? = version remote id)
  (resolutions : List ThreadConflictResolution) (selected : Std.ExtTreeMap String ThreadConflictResolution)
  (picked : ∀ id, selected[id]? = Keyed.find ThreadConflictResolution.threadId resolutions id)

-- What a pass of the loop asks of its conflict.
def Settled (resolutions : List ThreadConflictResolution) (conflict : ThreadConflict) : Prop :=
  ∃ resolution, Keyed.find ThreadConflictResolution.threadId resolutions conflict.threadId = some resolution ∧
    resolution.conflictId = conflict.conflictId

include localAt remoteAt picked in
theorem resolve_loop_ok (conflicts : List ThreadConflict) (threads result : List ThreadBundle) :
    resolveLoop selected locMap remoteMap conflicts threads = .ok result ↔
      (∀ conflict ∈ conflicts, Settled resolutions conflict) ∧
        result = threads ++ conflicts.filterMap (chosenSide loc remote resolutions) := by
  induction conflicts generalizing threads with
  | nil => simp [resolveLoop, eq_comm]
  | cons conflict rest ih =>
      rw [resolveLoop, bind_ok]
      simp only [found_ok, picked, bind_ok, ensure_ok, ih, localAt, remoteAt, List.forall_mem_cons, List.filterMap_cons]
      constructor
      · rintro ⟨resolution, chosen, _, current, settled, rfl⟩
        refine ⟨⟨⟨resolution, chosen, current⟩, settled⟩, ?_⟩
        have side : chosenSide loc remote resolutions conflict =
            resolution.choice.side (version loc conflict.threadId) (version remote conflict.threadId) := by
          rw [chosenSide, chosen, Option.bind_some]
        rw [side, List.append_assoc]
        cases resolution.choice.side (version loc conflict.threadId) (version remote conflict.threadId) <;> rfl
      · rintro ⟨⟨⟨resolution, chosen, current⟩, settled⟩, whole⟩
        refine ⟨resolution, chosen, (), current, settled, ?_⟩
        have side : chosenSide loc remote resolutions conflict =
            resolution.choice.side (version loc conflict.threadId) (version remote conflict.threadId) := by
          rw [chosenSide, chosen, Option.bind_some]
        rw [whole, side, List.append_assoc]
        cases resolution.choice.side (version loc conflict.threadId) (version remote conflict.threadId) <;> rfl

end Loop

section Law

variable (lib : Primitives) (base loc remote : List ThreadBundle) (resolutions : List ThreadConflictResolution)

theorem merged_conflicts_distinct : (conflictIds (merged lib base loc remote)).Nodup := by
  have ordered := Keyed.chosen_pairwise _ _ (choice_conflict_answers lib base loc remote) _ _ (all_ids_sorted base loc remote)
  refine (List.pairwise_map.mpr ordered).imp ?_
  intro a b before same
  exact String.lt_irrefl a (same ▸ before)

theorem merged_ids_distinct : (threadIds (merged lib base loc remote).threads).Nodup := by
  refine (List.pairwise_map.mpr (merged_sorted lib base loc remote)).imp ?_
  intro a b before same
  exact String.lt_irrefl a (same ▸ before)

theorem merge_thread_sets_ok_iff (outcome : ThreadMergeOutcome) : mergeThreadSets lib base loc remote = .ok outcome ↔
    ((threadIds base).Nodup ∧ (threadIds loc).Nodup ∧ (threadIds remote).Nodup) ∧ merged lib base loc remote = outcome := by
  simp only [← thread_map_ok_iff, mergeThreadSets, bind_ok, pure_ok]
  constructor
  · rintro ⟨baseMap, readBase, locMap, readLocal, remoteMap, readRemote, same⟩
    rw [merge_maps lib base loc remote baseMap locMap remoteMap readBase readLocal readRemote] at same
    exact ⟨⟨⟨_, readBase⟩, ⟨_, readLocal⟩, ⟨_, readRemote⟩⟩, same⟩
  · rintro ⟨⟨⟨baseMap, readBase⟩, ⟨locMap, readLocal⟩, ⟨remoteMap, readRemote⟩⟩, same⟩
    refine ⟨baseMap, readBase, locMap, readLocal, remoteMap, readRemote, ?_⟩
    rw [merge_maps lib base loc remote baseMap locMap remoteMap readBase readLocal readRemote, same]

theorem select_resolutions_ok_iff :
    (∃ selected, selectResolutions resolutions = .ok selected) ↔ (resolvedIds resolutions).Nodup := by
  rw [selectResolutions, Keyed.collect_ok_iff]
  exact and_iff_right fun _ _ => rfl

theorem selected_size (selected : Std.ExtTreeMap String ThreadConflictResolution)
    (read : selectResolutions resolutions = .ok selected) : selected.size = resolutions.length := by
  have distinct := (select_resolutions_ok_iff resolutions).mp ⟨selected, read⟩
  have at_ := Keyed.collect_lookup _ _ _ resolutions selected read
  have moved : selected.keys.Perm (resolvedIds resolutions) := by
    refine (List.perm_ext_iff_of_nodup Std.ExtTreeMap.nodup_keys distinct).mpr fun id => ?_
    rw [Std.ExtTreeMap.mem_keys, Std.ExtTreeMap.mem_iff_isSome_getElem?, at_, Option.isSome_iff_ne_none, Ne, Keyed.find_none,
      not_not]
    rfl
  rw [← Std.ExtTreeMap.length_keys, moved.length_eq, resolvedIds, List.length_map]

variable {lib base loc remote resolutions}

-- Counting the resolutions and asking for one at each conflict covers the conflicts exactly.
theorem resolves_iff (distinct : (resolvedIds resolutions).Nodup) :
    Resolves (merged lib base loc remote) resolutions ↔
      resolutions.length = (merged lib base loc remote).conflicts.length ∧
        ∀ conflict ∈ (merged lib base loc remote).conflicts, Settled resolutions conflict := by
  have apart := merged_conflicts_distinct lib base loc remote
  constructor
  · intro resolves
    have moved : (resolvedIds resolutions).Perm (conflictIds (merged lib base loc remote)) :=
      (List.perm_ext_iff_of_nodup distinct apart).mpr resolves.covers
    have sizes := moved.length_eq
    rw [resolvedIds, conflictIds, List.length_map, List.length_map] at sizes
    refine ⟨sizes, fun conflict member => ?_⟩
    have covered := (resolves.covers conflict.threadId).mpr (List.mem_map_of_mem member)
    obtain ⟨resolution, listed, same⟩ := List.mem_map.mp covered
    have picked := Keyed.find_of_mem ThreadConflictResolution.threadId resolutions resolution distinct listed
    rw [same] at picked
    exact ⟨resolution, picked, resolves.current resolution listed conflict member same⟩
  · rintro ⟨sizes, settled⟩
    have covered : ∀ id ∈ conflictIds (merged lib base loc remote), id ∈ resolvedIds resolutions := by
      intro id member
      obtain ⟨conflict, listed, rfl⟩ := List.mem_map.mp member
      obtain ⟨resolution, picked, _⟩ := settled conflict listed
      exact List.mem_map.mpr ⟨resolution, Keyed.find_mem _ _ _ _ picked, Keyed.find_key _ _ _ _ picked⟩
    have moved : (conflictIds (merged lib base loc remote)).Perm (resolvedIds resolutions) := by
      refine (List.subperm_of_subset apart covered).perm_of_length_le (Nat.le_of_eq ?_)
      rw [resolvedIds, conflictIds, List.length_map, List.length_map, sizes]
    refine ⟨distinct, fun id => moved.symm.mem_iff, fun resolution listed conflict member same => ?_⟩
    obtain ⟨other, picked, current⟩ := settled conflict member
    have here := Keyed.find_of_mem ThreadConflictResolution.threadId resolutions resolution distinct listed
    rw [same, picked] at here
    cases here
    exact current

theorem side_key (resolution : ThreadConflictResolution) (id : String) (thread : ThreadBundle)
    (taken : resolution.choice.side (version loc id) (version remote id) = some thread) : thread.threadId = id := by
  cases choice : resolution.choice with
  | loc =>
      rw [choice] at taken
      exact Keyed.find_key _ loc _ _ taken
  | remote =>
      rw [choice] at taken
      exact Keyed.find_key _ remote _ _ taken

theorem chosen_key (conflict : ThreadConflict) (thread : ThreadBundle)
    (chosen : chosenSide loc remote resolutions conflict = some thread) : thread.threadId = conflict.threadId := by
  obtain ⟨resolution, _, taken⟩ := Option.bind_eq_some_iff.mp chosen
  exact side_key resolution _ thread taken

-- The merged threads and the chosen sides never meet.
theorem resolved_distinct : (threadIds ((merged lib base loc remote).threads ++
    (merged lib base loc remote).conflicts.filterMap (chosenSide loc remote resolutions))).Nodup := by
  rw [threadIds, List.map_append]
  refine List.nodup_append'.mpr ⟨merged_ids_distinct lib base loc remote, ?_, ?_⟩
  · rw [List.Nodup, List.pairwise_map, List.pairwise_filterMap]
    refine (List.pairwise_map.mp (merged_conflicts_distinct lib base loc remote)).imp fun apart one chosen other taken => ?_
    rw [chosen_key _ one chosen, chosen_key _ other taken]
    exact apart
  · intro id kept taken
    obtain ⟨thread, member, rfl⟩ := List.mem_map.mp taken
    obtain ⟨conflict, listed, chosen⟩ := List.mem_filterMap.mp member
    rw [chosen_key conflict thread chosen] at kept
    exact merged_disjoint lib base loc remote conflict.threadId (List.mem_map_of_mem listed) kept

def Distinct (base loc remote : List ThreadBundle) : Prop :=
  (threadIds base).Nodup ∧ (threadIds loc).Nodup ∧ (threadIds remote).Nodup

theorem resolve_thread_sets_ok_iff (threads : List ThreadBundle) :
    resolveThreadSets lib base loc remote resolutions = .ok threads ↔
      Distinct base loc remote ∧ Resolves (merged lib base loc remote) resolutions ∧
        threads = ((merged lib base loc remote).threads ++
          (merged lib base loc remote).conflicts.filterMap (chosenSide loc remote resolutions)).insertionSort
            fun a b => a.threadId ≤ b.threadId := by
  simp only [resolveThreadSets, bind_ok, merge_thread_sets_ok_iff, ensure_ok, pure_ok]
  constructor
  · rintro ⟨outcome, ⟨distinct, rfl⟩, locMap, readLocal, remoteMap, readRemote, selected, read, _, sizes, listed, looped, rfl⟩
    have apart := (select_resolutions_ok_iff resolutions).mp ⟨selected, read⟩
    have passes := (resolve_loop_ok loc remote locMap remoteMap (thread_map_lookup loc locMap readLocal)
      (thread_map_lookup remote remoteMap readRemote) resolutions selected (Keyed.collect_lookup _ _ _ _ _ read) _ _ _).mp looped
    rw [selected_size resolutions selected read] at sizes
    exact ⟨distinct, (resolves_iff apart).mpr ⟨sizes, passes.1⟩, by rw [passes.2]⟩
  · rintro ⟨distinct, resolves, rfl⟩
    obtain ⟨locMap, readLocal⟩ := (thread_map_ok_iff loc).mpr distinct.2.1
    obtain ⟨remoteMap, readRemote⟩ := (thread_map_ok_iff remote).mpr distinct.2.2
    obtain ⟨selected, read⟩ := (select_resolutions_ok_iff resolutions).mpr resolves.distinct
    obtain ⟨sizes, settled⟩ := (resolves_iff resolves.distinct).mp resolves
    have looped := (resolve_loop_ok loc remote locMap remoteMap (thread_map_lookup loc locMap readLocal)
      (thread_map_lookup remote remoteMap readRemote) resolutions selected (Keyed.collect_lookup _ _ _ _ _ read)
      (merged lib base loc remote).conflicts (merged lib base loc remote).threads _).mpr ⟨settled, rfl⟩
    exact ⟨_, ⟨distinct, rfl⟩, locMap, readLocal, remoteMap, readRemote, selected, read, (),
      (selected_size resolutions selected read).trans sizes, _, looped, rfl⟩

-- The merged threads with the chosen side of every conflict, a deleted one left out.
structure Resolved (loc remote : List ThreadBundle) (outcome : ThreadMergeOutcome) (resolutions : List ThreadConflictResolution)
    (threads : List ThreadBundle) : Prop where
  whole : threads.Perm (outcome.threads ++ outcome.conflicts.filterMap (chosenSide loc remote resolutions))
  sorted : threads.Pairwise fun a b => a.threadId < b.threadId
  kept : ∀ id, id ∉ conflictIds outcome → version threads id = version outcome.threads id
  chosen : ∀ resolution ∈ resolutions, version threads resolution.threadId =
    resolution.choice.side (version loc resolution.threadId) (version remote resolution.threadId)

theorem version_iff (threads : List ThreadBundle) (distinct : (threadIds threads).Nodup) (id : String) (thread : ThreadBundle) :
    version threads id = some thread ↔ thread ∈ threads ∧ thread.threadId = id := by
  constructor
  · intro stored
    exact ⟨Keyed.find_mem _ _ _ _ stored, Keyed.find_key _ _ _ _ stored⟩
  · rintro ⟨member, rfl⟩
    exact Keyed.find_of_mem _ threads thread distinct member

theorem resolved_whole (threads : List ThreadBundle) (resolves : Resolves (merged lib base loc remote) resolutions)
    (whole : threads.Perm ((merged lib base loc remote).threads ++
      (merged lib base loc remote).conflicts.filterMap (chosenSide loc remote resolutions)))
    (sorted : threads.Pairwise fun a b => a.threadId ≤ b.threadId) :
    Resolved loc remote (merged lib base loc remote) resolutions threads := by
  have distinct : (threadIds threads).Nodup := (whole.map _).nodup_iff.mpr resolved_distinct
  refine ⟨whole, ?_, fun id outside => ?_, fun resolution listed => ?_⟩
  · have strict := sorted.and (List.pairwise_map.mp distinct)
    exact strict.imp fun both => Std.lt_of_le_of_ne both.1 both.2
  · ext thread
    rw [version_iff threads distinct, version_iff _ (merged_ids_distinct lib base loc remote), whole.mem_iff, List.mem_append]
    refine and_congr_left fun same => or_iff_left fun taken => ?_
    obtain ⟨conflict, member, chosen⟩ := List.mem_filterMap.mp taken
    rw [← same, chosen_key conflict thread chosen] at outside
    exact outside (List.mem_map_of_mem member)
  · have reported := (resolves.covers resolution.threadId).mp (List.mem_map_of_mem listed)
    have picked := Keyed.find_of_mem ThreadConflictResolution.threadId resolutions resolution resolves.distinct listed
    ext thread
    rw [version_iff threads distinct, whole.mem_iff, List.mem_append]
    constructor
    · rintro ⟨kept | taken, same⟩
      · exact absurd (same ▸ List.mem_map_of_mem kept) (merged_disjoint lib base loc remote _ reported)
      · obtain ⟨conflict, _, chosen⟩ := List.mem_filterMap.mp taken
        rw [chosenSide, ← chosen_key conflict thread chosen, same, picked] at chosen
        exact chosen
    · intro taken
      obtain ⟨conflict, member, same⟩ := List.mem_map.mp reported
      refine ⟨Or.inr (List.mem_filterMap.mpr ⟨conflict, member, ?_⟩), side_key resolution _ thread taken⟩
      rw [chosenSide, same, picked]
      exact taken

end Law

section Stale

variable (lib : Primitives)

-- What semantic_thread_hash and conflict_fingerprint hash.
def semanticBytes (thread : ThreadBundle) : Bytes := toVec lib (remoteThreadView thread).toValue

def fingerprintBytes (conflict : ThreadConflict) : Bytes :=
  let hash := fun version : Option ThreadConflictVersion => Value.option .string (version.map (·.semanticHash))
  toVec lib (.array [.string conflict.threadId, .string conflict.kind.name, hash conflict.baseVersion, hash conflict.localVersion,
    hash conflict.remoteVersion])

-- Everything that resolving a triple of lists hashes.
def hashedInputs (base loc remote : List ThreadBundle) : List Bytes :=
  (base ++ loc ++ remote).map (semanticBytes lib) ++ (merged lib base loc remote).conflicts.map (fingerprintBytes lib)

theorem hex_byte_injective (left right : UInt8) (same : hexByte left = hexByte right) : left = right := by
  have digit : ∀ a b : Fin 16, hexDigit a.val = hexDigit b.val → a = b := by decide
  obtain ⟨high, low, _⟩ : hexDigit (left.toNat / 16) = hexDigit (right.toNat / 16) ∧
      hexDigit (left.toNat % 16) = hexDigit (right.toNat % 16) ∧ True := by simpa [hexByte] using same
  have upper := Fin.mk.inj_iff.mp (digit ⟨left.toNat / 16, by have := left.toNat_lt; omega⟩
    ⟨right.toNat / 16, by have := right.toNat_lt; omega⟩ high)
  have lower := Fin.mk.inj_iff.mp (digit ⟨left.toNat % 16, by omega⟩ ⟨right.toNat % 16, by omega⟩ low)
  exact UInt8.toNat_inj.mp (by omega)

theorem hex_encode_injective (left right : Bytes) (same : hexEncode left = hexEncode right) : left = right := by
  induction left generalizing right with
  | nil =>
      have sizes := hex_encode_length right
      rw [← same] at sizes
      exact (List.length_eq_zero_iff.mp (by simpa [hexEncode] using sizes)).symm
  | cons byte rest ih =>
      cases right with
      | nil => simp [hexEncode, hexByte] at same
      | cons other tail =>
          have parts := List.append_inj (show hexByte byte ++ hexEncode rest = hexByte other ++ hexEncode tail from same) rfl
          rw [hex_byte_injective byte other parts.1, ih tail parts.2]

theorem digest_bytes_injective (left right : Bytes) (same : digestBytes lib left = digestBytes lib right) :
    lib.sha256 left = lib.sha256 right := by
  have texts := List.append_cancel_left (String.ofList_injective same)
  exact Vector.toList_inj.mp (hex_encode_injective _ _ texts)

theorem option_text_injective (left right : Option String) (same : Value.option .string left = Value.option .string right) :
    left = right := by
  cases left with
  | none => cases right with
    | none => rfl
    | some other => cases same
  | some text => cases right with
    | none => cases same
    | some other => rw [Value.string.inj same]

theorem fingerprint_fields (left right : ThreadConflict) (same : fingerprintBytes lib left = fingerprintBytes lib right) :
    left.baseVersion.map (·.semanticHash) = right.baseVersion.map (·.semanticHash) ∧
      left.localVersion.map (·.semanticHash) = right.localVersion.map (·.semanticHash) ∧
      left.remoteVersion.map (·.semanticHash) = right.remoteVersion.map (·.semanticHash) := by
  -- No number occurs in a fingerprint, so the printer of floats does not matter.
  have neutral : ∀ conflict, fingerprintBytes lib conflict = fingerprintBytes sampleLib conflict := by
    rintro ⟨_, _, _, _, base, loc, remote⟩
    cases base <;> cases loc <;> cases remote <;>
      simp only [fingerprintBytes, toVec, writeJson, writeElements, Value.option, Option.map_none, Option.map_some]
  have printable : ∀ conflict : ThreadConflict, Printable (.array [.string conflict.threadId, .string conflict.kind.name,
      Value.option .string (conflict.baseVersion.map (·.semanticHash)),
        Value.option .string (conflict.localVersion.map (·.semanticHash)),
      Value.option .string (conflict.remoteVersion.map (·.semanticHash))]) := by
    rintro ⟨_, _, _, _, base, loc, remote⟩
    cases base <;> cases loc <;> cases remote <;>
      simp only [Printable, PrintableElements, Value.option, Option.map_none, Option.map_some, and_self]
  rw [neutral, neutral right] at same
  have equal := write_json_injective sample_floats _ _ (printable left) (printable right) same
  simp only [Value.array.injEq, List.cons.injEq, and_true] at equal
  exact ⟨option_text_injective _ _ equal.2.2.1, option_text_injective _ _ equal.2.2.2.1, option_text_injective _ _ equal.2.2.2.2⟩

-- The version of an id as its semantic hash sees it.
def semanticVersion (threads : List ThreadBundle) (id : String) : Option Bytes := (version threads id).map (semanticBytes lib)

theorem semantic_version_same (left right : List ThreadBundle) (id : String)
    (apart : ∀ one ∈ left, ∀ other ∈ right, lib.sha256 (semanticBytes lib one) = lib.sha256 (semanticBytes lib other) →
      semanticBytes lib one = semanticBytes lib other)
    (same : ((version left id).map (conflictVersion lib)).map (·.semanticHash) =
      ((version right id).map (conflictVersion lib)).map (·.semanticHash)) :
    semanticVersion lib left id = semanticVersion lib right id := by
  rw [semanticVersion, semanticVersion]
  cases here : version left id with
  | none => cases there : version right id with
    | none => rfl
    | some other =>
        rw [here, there] at same
        cases same
  | some thread => cases there : version right id with
    | none =>
        rw [here, there] at same
        cases same
    | some other =>
        rw [here, there] at same
        have digests := digest_bytes_injective lib (semanticBytes lib thread) (semanticBytes lib other) (Option.some.inj same)
        exact congrArg some (apart thread (Keyed.find_mem _ _ _ _ here) other (Keyed.find_mem _ _ _ _ there) digests)

theorem merged_conflict_form (base loc remote : List ThreadBundle) (conflict : ThreadConflict)
    (member : conflict ∈ (merged lib base loc remote).conflicts) :
    conflict = threadConflict lib conflict.threadId (version base conflict.threadId) (version loc conflict.threadId)
      (version remote conflict.threadId) := by
  obtain ⟨id, _, chosen⟩ := List.mem_filterMap.mp member
  have named := choice_conflict_answers lib base loc remote id conflict chosen
  have cases := merge_thread_cases lib id (version base id) (version loc id) (version remote id)
  dsimp only [choiceFor] at chosen
  rcases cases with kept | kept | kept
  · rw [kept] at chosen
    cases chosen
  · rw [kept] at chosen
    cases chosen
  · rw [kept] at chosen
    rw [named]
    exact (Option.some.inj chosen).symm

-- Two conflicts with one id were computed from the same three versions.
theorem same_conflict_versions (base loc remote base' loc' remote' : List ThreadBundle)
    (hash : ∀ left ∈ hashedInputs lib base loc remote, ∀ right ∈ hashedInputs lib base' loc' remote',
      lib.sha256 left = lib.sha256 right → left = right)
    (conflict other : ThreadConflict) (member : conflict ∈ (merged lib base loc remote).conflicts)
    (listed : other ∈ (merged lib base' loc' remote').conflicts) (named : other.threadId = conflict.threadId)
    (same : conflict.conflictId = other.conflictId) :
    semanticVersion lib base conflict.threadId = semanticVersion lib base' conflict.threadId ∧
      semanticVersion lib loc conflict.threadId = semanticVersion lib loc' conflict.threadId ∧
      semanticVersion lib remote conflict.threadId = semanticVersion lib remote' conflict.threadId := by
  have form := merged_conflict_form lib base loc remote conflict member
  have otherForm := merged_conflict_form lib base' loc' remote' other listed
  have digests : lib.sha256 (fingerprintBytes lib conflict) = lib.sha256 (fingerprintBytes lib other) := by
    refine digest_bytes_injective lib _ _ ?_
    rw [form, otherForm] at same ⊢
    exact same
  have texts :=
    hash _ (List.mem_append_right _ (List.mem_map_of_mem member)) _ (List.mem_append_right _ (List.mem_map_of_mem listed)) digests
  have fields := fingerprint_fields lib conflict other texts
  rw [form, otherForm, named] at fields
  have viewed : ∀ left right, left ⊆ base ++ loc ++ remote → right ⊆ base' ++ loc' ++ remote' → ∀ one ∈ left, ∀ other ∈ right,
      lib.sha256 (semanticBytes lib one) = lib.sha256 (semanticBytes lib other) →
        semanticBytes lib one = semanticBytes lib other := by
    intro left right inside within one first other second
    exact hash _ (List.mem_append_left _ (List.mem_map_of_mem (inside first))) _
      (List.mem_append_left _ (List.mem_map_of_mem (within second)))
  refine ⟨semantic_version_same lib _ _ _ (viewed _ _ ?_ ?_) fields.1, semantic_version_same lib _ _ _ (viewed _ _ ?_ ?_) fields.2.1,
    semantic_version_same lib _ _ _ (viewed _ _ ?_ ?_) fields.2.2⟩ <;> intro thread <;> simp +contextual

-- A resolution made while its conflict was on display.
def Prepared (base loc remote : List ThreadBundle) (resolution : ThreadConflictResolution) : Prop :=
  ∃ outcome, mergeThreadSets lib base loc remote = .ok outcome ∧
    ∃ conflict ∈ outcome.conflicts, conflict.threadId = resolution.threadId ∧ conflict.conflictId = resolution.conflictId

def VersionChanged (base loc remote base' loc' remote' : List ThreadBundle) (id : String) : Prop :=
  semanticVersion lib base id ≠ semanticVersion lib base' id ∨ semanticVersion lib loc id ≠ semanticVersion lib loc' id ∨
    semanticVersion lib remote id ≠ semanticVersion lib remote' id

-- The law of resolve_thread_sets: when it succeeds, what it returns, and that it
-- rejects a resolution whose conflict has moved on.
theorem resolve_thread_sets_law (base loc remote : List ThreadBundle) (resolutions : List ThreadConflictResolution) :
    ((∃ threads, resolveThreadSets lib base loc remote resolutions = .ok threads) ↔
      ∃ outcome, mergeThreadSets lib base loc remote = .ok outcome ∧ Resolves outcome resolutions) ∧
    (∀ outcome threads, mergeThreadSets lib base loc remote = .ok outcome →
      resolveThreadSets lib base loc remote resolutions = .ok threads → Resolved loc remote outcome resolutions threads) ∧
    ∀ before loc' remote' resolution, Prepared lib before loc' remote' resolution →
      (∀ left ∈ hashedInputs lib before loc' remote', ∀ right ∈ hashedInputs lib base loc remote,
        lib.sha256 left = lib.sha256 right → left = right) →
      VersionChanged lib before loc' remote' base loc remote resolution.threadId → resolution ∈ resolutions →
        ∃ message, resolveThreadSets lib base loc remote resolutions = .error message := by
  refine ⟨?_, ?_, ?_⟩
  · constructor
    · rintro ⟨threads, resolved⟩
      obtain ⟨distinct, resolves, _⟩ := (resolve_thread_sets_ok_iff threads).mp resolved
      exact ⟨_, (merge_thread_sets_ok_iff lib base loc remote _).mpr ⟨distinct, rfl⟩, resolves⟩
    · rintro ⟨outcome, read, resolves⟩
      obtain ⟨distinct, rfl⟩ := (merge_thread_sets_ok_iff lib base loc remote outcome).mp read
      exact ⟨_, (resolve_thread_sets_ok_iff _).mpr ⟨distinct, resolves, rfl⟩⟩
  · intro outcome threads read resolved
    obtain ⟨_, rfl⟩ := (merge_thread_sets_ok_iff lib base loc remote outcome).mp read
    obtain ⟨_, resolves, rfl⟩ := (resolve_thread_sets_ok_iff threads).mp resolved
    exact resolved_whole _ resolves (List.perm_insertionSort _ _) (List.pairwise_insertionSort _ _)
  · intro before loc' remote' resolution prepared hash changed listed
    cases outcome : resolveThreadSets lib base loc remote resolutions with
    | error message => exact ⟨message, rfl⟩
    | ok threads =>
        obtain ⟨_, resolves, _⟩ := (resolve_thread_sets_ok_iff threads).mp outcome
        obtain ⟨shown, read, conflict, member, named, made⟩ := prepared
        obtain ⟨_, rfl⟩ := (merge_thread_sets_ok_iff lib before loc' remote' shown).mp read
        have reported := (resolves.covers resolution.threadId).mp (List.mem_map_of_mem listed)
        obtain ⟨other, present, same⟩ := List.mem_map.mp reported
        have current := resolves.current resolution listed other present same.symm
        have equal := same_conflict_versions lib before loc' remote' base loc remote hash conflict other member present
          (same.trans named.symm) (made.trans current)
        rw [named] at equal
        rcases changed with changed | changed | changed
        · exact absurd equal.1 changed
        · exact absurd equal.2.1 changed
        · exact absurd equal.2.2 changed

end Stale

namespace ResolutionSample

def content : ContentObject where
  sha256 := "sha256:00"
  byteLength := 1
  mediaType := "application/jsonl"
  logicalPath := none
  sourcePath := none
  storage := none

def titled (title : String) : ThreadBundle where
  schemaVersion := 1
  threadId := "t"
  title := title
  archived := false
  createdAtMs := none
  updatedAtMs := none
  modelProvider := none
  workspace := { logicalId := none, sourcePath := none }
  rollout := content
  relatedRecords := { sourceDatabase := none, tables := ∅ }
  attachments := []

def conflict (title : String) : ThreadConflict := threadConflict sampleLib "t" none (some (titled "a")) (some (titled title))

def resolution : ThreadConflictResolution := { conflictId := (conflict "b").conflictId, threadId := "t", choice := .loc }

theorem prepared_for : resolution.threadId = "t" ∧ (conflict "b").threadId = resolution.threadId ∧
    (conflict "b").conflictId = resolution.conflictId := by
  simp only [resolution, conflict, threadConflict, and_self]

theorem digests_apart : ([semanticBytes sampleLib (titled "a"), semanticBytes sampleLib (titled "b"),
    semanticBytes sampleLib (titled "c"), fingerprintBytes sampleLib (conflict "b"),
      fingerprintBytes sampleLib (conflict "c")].map sampleLib.sha256).Nodup := by
  decide +kernel

theorem stored (title : String) : version [titled title] "t" = some (titled title) := by
  simp [version, Keyed.find, titled]

theorem ids (title : String) : allIds [] [titled "a"] [titled title] = ["t"] := by
  have listed : threadIds [] ++ threadIds [titled "a"] ++ threadIds [titled title] = ["t", "t"] := rfl
  rw [allIds, listed]
  decide +kernel

theorem conflicts (title : String) (apart : semanticThreadHash sampleLib (titled "a") ≠ semanticThreadHash sampleLib (titled title)) :
    (merged sampleLib [] [titled "a"] [titled title]).conflicts = [conflict title] := by
  have choice := merge_thread_both sampleLib "t" none (some (titled "a")) (some (titled title)) (by simp [versionHash])
    (by simp [versionHash])
  rw [if_neg (by simpa [versionHash] using apart)] at choice
  have chosen : choiceFor sampleLib [] [titled "a"] [titled title] "t" = .disagree (conflict title) := by
    rw [choiceFor, stored, stored]
    exact choice
  simp [merged, ids, chosen, MergeChoice.conflict?]

theorem hashes_apart (title : String) (listed : title = "b" ∨ title = "c") :
    semanticThreadHash sampleLib (titled "a") ≠ semanticThreadHash sampleLib (titled title) := by
  intro same
  have digests :=
    digest_bytes_injective sampleLib (semanticBytes sampleLib (titled "a")) (semanticBytes sampleLib (titled title)) same
  have apart := digests_apart
  rcases listed with rfl | rfl <;> simp [digests] at apart

theorem merges (title : String) (listed : title = "b" ∨ title = "c") : ∃ outcome,
    mergeThreadSets sampleLib [] [titled "a"] [titled title] = .ok outcome ∧ outcome.conflicts = [conflict title] :=
  ⟨_, (merge_thread_sets_ok_iff sampleLib _ _ _ _).mpr ⟨⟨List.nodup_nil, List.nodup_singleton _, List.nodup_singleton _⟩, rfl⟩,
    conflicts title (hashes_apart title listed)⟩

theorem hash_apart : ∀ left ∈ hashedInputs sampleLib [] [titled "a"] [titled "b"],
    ∀ right ∈ hashedInputs sampleLib [] [titled "a"] [titled "c"], sampleLib.sha256 left = sampleLib.sha256 right → left = right := by
  have listed : ∀ title, title = "b" ∨ title = "c" → hashedInputs sampleLib [] [titled "a"] [titled title] =
      [semanticBytes sampleLib (titled "a"), semanticBytes sampleLib (titled title),
        fingerprintBytes sampleLib (conflict title)] := by
    intro title known
    rw [hashedInputs, conflicts title (hashes_apart title known)]
    rfl
  rw [listed "b" (.inl rfl), listed "c" (.inr rfl)]
  have among : ∀ (a b c f g bytes : Bytes), (bytes ∈ [a, b, f] → bytes ∈ [a, b, c, f, g]) ∧
      (bytes ∈ [a, c, g] → bytes ∈ [a, b, c, f, g]) := by
    intro a b c f g bytes
    simp only [List.mem_cons, List.not_mem_nil, or_false]
    tauto
  intro left first right second
  exact List.inj_on_of_nodup_map digests_apart ((among _ _ _ _ _ left).1 first) ((among _ _ _ _ _ right).2 second)

end ResolutionSample

-- The displayed conflict resolves, and no longer once the remote title has moved on.
theorem resolve_thread_sets_law_titles :
    (∃ threads, resolveThreadSets sampleLib [] [ResolutionSample.titled "a"] [ResolutionSample.titled "b"]
        [ResolutionSample.resolution] = .ok threads ∧ version threads "t" = some (ResolutionSample.titled "a")) ∧
      ∃ message, resolveThreadSets sampleLib [] [ResolutionSample.titled "a"] [ResolutionSample.titled "c"]
        [ResolutionSample.resolution] = .error message := by
  have law := fun title => resolve_thread_sets_law sampleLib [] [ResolutionSample.titled "a"] [ResolutionSample.titled title]
    [ResolutionSample.resolution]
  obtain ⟨outcome, read, shown⟩ := ResolutionSample.merges "b" (.inl rfl)
  constructor
  · have resolves : Resolves outcome [ResolutionSample.resolution] := by
      refine ⟨List.nodup_singleton _, fun id => ?_, fun resolution listed conflict member _ => ?_⟩
      · rw [conflictIds, shown]
        exact Iff.rfl
      · rw [shown] at member
        rw [List.mem_singleton.mp listed, List.mem_singleton.mp member]
        rfl
    obtain ⟨threads, resolved⟩ := (law "b").1.mpr ⟨outcome, read, resolves⟩
    have chosen := ((law "b").2.1 outcome threads read resolved).chosen ResolutionSample.resolution (List.mem_singleton.mpr rfl)
    exact ⟨threads, resolved, chosen.trans (ResolutionSample.stored "a")⟩
  · refine (law "c").2.2 [] [ResolutionSample.titled "a"] [ResolutionSample.titled "b"] ResolutionSample.resolution ?_
      ResolutionSample.hash_apart ?_ List.mem_cons_self
    · exact ⟨outcome, read, ResolutionSample.conflict "b", by rw [shown]; exact List.mem_cons_self,
        ResolutionSample.prepared_for.2⟩
    · refine .inr (.inr fun same => ?_)
      have apart := ResolutionSample.digests_apart
      rw [semanticVersion, semanticVersion, ResolutionSample.prepared_for.1, ResolutionSample.stored, ResolutionSample.stored,
        Option.map_some, Option.map_some, Option.some.injEq] at same
      simp [same] at apart

end SessionSync.Core
