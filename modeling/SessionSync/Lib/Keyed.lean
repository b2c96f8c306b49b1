import Std.Data.ExtTreeMap
import Std.Data.ExtTreeSet
import Mathlib.Data.List.Destutter
import Mathlib.Data.List.Induction
import Mathlib.Data.List.Nodup
import Mathlib.Data.List.Perm.Subperm
import Mathlib.Order.Lattice

set_option autoImplicit false

namespace Keyed

-- Pairs as keys, compared by the first component first.
instance pairOrd {α β : Type} [Ord α] [Ord β] : Ord (α × β) := lexOrd

instance pairTrans {α β : Type} [Ord α] [Ord β] [Std.TransOrd α] [Std.TransOrd β] : Std.TransOrd (α × β) :=
  inferInstanceAs (Std.TransCmp (compareLex (compareOn Prod.fst) (compareOn Prod.snd)))

instance pairLawful {α β : Type} [Ord α] [Ord β] [Std.LawfulEqOrd α] [Std.LawfulEqOrd β] : Std.LawfulEqOrd (α × β) where
  eq_of_compare {a b} same := by
    obtain ⟨first, second⟩ := Ordering.then_eq_eq.mp same
    exact Prod.ext (Std.LawfulEqOrd.eq_of_compare first) (Std.LawfulEqOrd.eq_of_compare second)
  compare_self {a} := Ordering.then_eq_eq.mpr ⟨Std.ReflOrd.compare_self, Std.ReflOrd.compare_self⟩

section Lists

variable {κ α : Type} [DecidableEq κ]

def find (key : α → κ) (values : List α) (id : κ) : Option α := values.find? fun value => key value = id

theorem find_key (key : α → κ) (values : List α) (id : κ) (value : α) (found : find key values id = some value) :
    key value = id := by
  have matched := List.find?_some found
  exact of_decide_eq_true matched

theorem find_mem (key : α → κ) (values : List α) (id : κ) (value : α) (found : find key values id = some value) :
    value ∈ values := List.mem_of_find?_eq_some found

theorem find_none (key : α → κ) (values : List α) (id : κ) : find key values id = none ↔ id ∉ values.map key := by
  simp only [find, List.find?_eq_none, decide_eq_true_eq, List.mem_map, not_exists, not_and]

theorem find_cons (key : α → κ) (head : α) (rest : List α) (id : κ) :
    find key (head :: rest) id = if key head = id then some head else find key rest id := by
  by_cases same : key head = id
  · simp only [find, List.find?_cons, same, decide_true, if_true]
  · simp only [find, List.find?_cons, same, decide_false, if_false]

theorem find_of_mem (key : α → κ) (values : List α) (value : α) (distinct : (values.map key).Nodup)
    (member : value ∈ values) : find key values (key value) = some value := by
  induction values with
  | nil => cases member
  | cons head rest ih =>
      have parts := List.nodup_cons.mp distinct
      rw [find_cons]
      by_cases same : key head = key value
      · rcases List.mem_cons.mp member with rfl | later
        · rw [if_pos rfl]
        · exact absurd (same ▸ List.mem_map_of_mem later) parts.1
      · have later : value ∈ rest := (List.mem_cons.mp member).resolve_left fun equal => same (equal ▸ rfl)
        rw [if_neg same]
        exact ih parts.2 later

theorem filter_key (key : α → κ) (values : List α) (distinct : (values.map key).Nodup) (id : κ) :
    (values.filter fun value => key value = id) = (find key values id).toList := by
  induction values with
  | nil => rfl
  | cons head rest ih =>
      have parts := List.nodup_cons.mp distinct
      rw [find_cons, List.filter_cons]
      by_cases same : key head = id
      · have missing : find key rest id = none := by
          rw [find_none, ← same]
          exact parts.1
        simp only [same, decide_true, if_true, ih parts.2, missing, Option.toList_none, Option.toList_some]
      · simp only [same, decide_false, if_false, Bool.false_eq_true, ih parts.2]

-- A function that answers under the key it was asked for.
def Answers (key : α → κ) (choose : κ → Option α) : Prop := ∀ (id : κ) (value : α), choose id = some value → key value = id

theorem find_chosen (key : α → κ) (choose : κ → Option α) (answers : Answers key choose) (ids : List κ) (id : κ) :
    find key (ids.filterMap choose) id = if id ∈ ids then choose id else none := by
  induction ids with
  | nil => rfl
  | cons head rest ih =>
      cases chosen : choose head with
      | none =>
          rw [List.filterMap_cons_none chosen, ih]
          by_cases same : id = head
          · simp only [same, chosen, List.mem_cons_self, ite_self]
          · simp only [List.mem_cons, same, false_or]
      | some value =>
          rw [List.filterMap_cons_some chosen, find_cons, answers head value chosen, ih]
          by_cases same : id = head
          · simp only [same, chosen, List.mem_cons_self, if_true]
          · rw [if_neg (Ne.symm same)]
            simp only [List.mem_cons, same, false_or]

omit [DecidableEq κ] in
theorem chosen_pairwise (key : α → κ) (choose : κ → Option α) (answers : Answers key choose) (ids : List κ)
    (before : κ → κ → Prop) (ordered : ids.Pairwise before) :
    (ids.filterMap choose).Pairwise fun a b => before (key a) (key b) := by
  refine List.Pairwise.filterMap choose ?_ ordered
  intro a b earlier first chosenFirst second chosenSecond
  rw [answers a first chosenFirst, answers b second chosenSecond]
  exact earlier

theorem map_chosen_congr {β γ : Type} (f g : α → Option β) (view : β → γ) (list : List α)
    (same : ∀ value, (f value).map view = (g value).map view) :
    (list.filterMap f).map view = (list.filterMap g).map view := by
  rw [List.map_filterMap, List.map_filterMap]
  exact List.filterMap_congr fun value _ => same value

omit [DecidableEq κ] in
theorem chosen_keys_congr (key : α → κ) (f g : κ → Option α) (first : Answers key f) (second : Answers key g)
    (same : ∀ id, (f id).isSome = (g id).isSome) (ids : List κ) :
    (ids.filterMap f).map key = (ids.filterMap g).map key := by
  refine map_chosen_congr f g key ids fun id => ?_
  have agree := same id
  cases one : f id with
  | none =>
      rw [one, Option.isSome_none] at agree
      rw [Option.isNone_iff_eq_none.mp (Option.isSome_eq_false_iff.mp agree.symm)]
  | some value =>
      rw [one, Option.isSome_some] at agree
      obtain ⟨other, two⟩ := Option.isSome_iff_exists.mp agree.symm
      rw [two, Option.map_some, Option.map_some, first id value one, second id other two]

omit [DecidableEq κ] in
-- A rearrangement that leaves every key in its place leaves everything in its place.
theorem perm_same_keys (key : α → κ) (left right : List α) (moved : left.Perm right)
    (keys : left.map key = right.map key) (distinct : (left.map key).Nodup) : left = right := by
  induction left generalizing right with
  | nil => exact (List.nil_perm.mp moved).symm
  | cons head rest ih =>
      cases right with
      | nil => exact absurd moved.length_eq (Nat.succ_ne_zero _)
      | cons other others =>
          obtain ⟨first, tails⟩ := List.cons.inj keys
          have fresh := (List.nodup_cons.mp distinct).1
          have same : other = head := by
            rcases List.mem_cons.mp (moved.mem_iff.mpr List.mem_cons_self) with same | later
            · exact same
            · exact absurd (first ▸ List.mem_map_of_mem later) fresh
          subst same
          rw [ih others ((List.perm_cons _).mp moved) tails (List.nodup_cons.mp distinct).2]

omit [DecidableEq κ] in
-- Lists whose images are rearrangements of each other, where no two of their items share an image.
theorem perm_of_map_perm (image : α → κ) (left right : List α) (apart : ∀ a ∈ left, ∀ b ∈ right, image a = image b → a = b)
    (moved : (left.map image).Perm (right.map image)) : left.Perm right := by
  induction left generalizing right with
  | nil =>
      rw [List.map_nil, List.nil_perm, List.map_eq_nil_iff] at moved
      rw [moved]
  | cons head rest ih =>
      obtain ⟨other, member, same⟩ := List.mem_map.mp (moved.mem_iff.mp List.mem_cons_self)
      have equal : head = other := apart head List.mem_cons_self other member same.symm
      subst equal
      obtain ⟨before, after, rfl⟩ := List.append_of_mem member
      have tails : (rest.map image).Perm ((before ++ after).map image) := by
        rw [List.map_append, List.map_cons] at moved
        rw [List.map_append]
        exact (List.perm_cons _).mp (moved.trans List.perm_middle)
      refine (List.Perm.cons head (ih _ (fun a inside b found => ?_) tails)).trans List.perm_middle.symm
      refine apart a (List.mem_cons_of_mem _ inside) b ?_
      rcases List.mem_append.mp found with early | late
      · exact List.mem_append_left _ early
      · exact List.mem_append_right _ (List.mem_cons_of_mem _ late)

end Lists

section Matched

variable {α β : Type} (relates : α → β → Prop)

theorem matched_left (left : List α) (right : List β) (matched : List.Forall₂ relates left right) (a : α) (member : a ∈ left) :
    ∃ b ∈ right, relates a b := by
  induction matched with
  | nil => cases member
  | @cons one other _ _ head _ ih =>
      rcases List.mem_cons.mp member with rfl | later
      · exact ⟨other, List.mem_cons_self, head⟩
      · obtain ⟨b, inside, holds⟩ := ih later
        exact ⟨b, List.mem_cons_of_mem _ inside, holds⟩

theorem matched_right (left : List α) (right : List β) (matched : List.Forall₂ relates left right) (b : β) (member : b ∈ right) :
    ∃ a ∈ left, relates a b :=
  matched_left (fun b a => relates a b) right left matched.flip b member

end Matched

section Maps

variable {κ α ε : Type} [Ord κ] [Std.TransOrd κ] [Std.LawfulEqOrd κ]

-- Insert every value under its key. The first value that fails its check or
-- repeats a key ends the pass.
def collect (key : α → κ) (check : α → Except ε Unit) (repeated : α → ε) :
    List α → Std.ExtTreeMap κ α → Except ε (Std.ExtTreeMap κ α)
  | [], map => .ok map
  | value :: rest, map =>
      match check value with
      | .error reason => .error reason
      | .ok _ =>
          if map.contains (key value) then .error (repeated value)
          else collect key check repeated rest (map.insert (key value) value)

-- What a list must satisfy to be collected over a map that is already there.
structure Collectable (key : α → κ) (check : α → Except ε Unit) (map : Std.ExtTreeMap κ α) (values : List α) : Prop where
  passes : ∀ value ∈ values, check value = .ok ()
  distinct : (values.map key).Nodup
  fresh : ∀ value ∈ values, key value ∉ map

theorem collectable_cons (key : α → κ) (check : α → Except ε Unit) (map : Std.ExtTreeMap κ α) (head : α) (rest : List α)
    (passed : check head = .ok ()) (absent : key head ∉ map) :
    Collectable key check map (head :: rest) ↔ Collectable key check (map.insert (key head) head) rest := by
  constructor
  · intro whole
    have parts := List.nodup_cons.mp whole.distinct
    refine ⟨fun value member => whole.passes value (List.mem_cons_of_mem _ member), parts.2, fun value member => ?_⟩
    rw [Std.ExtTreeMap.mem_insert, Std.LawfulEqOrd.compare_eq_iff_eq]
    rintro (same | present)
    · exact parts.1 (same ▸ List.mem_map_of_mem member)
    · exact whole.fresh value (List.mem_cons_of_mem _ member) present
  · intro later
    have separate : ∀ value ∈ rest, key head ≠ key value ∧ key value ∉ map := by
      intro value member
      have outside := later.fresh value member
      rw [Std.ExtTreeMap.mem_insert, Std.LawfulEqOrd.compare_eq_iff_eq, not_or] at outside
      exact outside
    refine ⟨List.forall_mem_cons.mpr ⟨passed, later.passes⟩, List.nodup_cons.mpr ⟨?_, later.distinct⟩,
      List.forall_mem_cons.mpr ⟨absent, fun value member => (separate value member).2⟩⟩
    intro repeated
    obtain ⟨value, member, same⟩ := List.mem_map.mp repeated
    exact (separate value member).1 same.symm

-- The values of a map in key order.
def values (map : Std.ExtTreeMap κ α) : List α := map.toList.map Prod.snd

-- Each value is filed under its own key.
def Filed (key : α → κ) (map : Std.ExtTreeMap κ α) : Prop := ∀ (id : κ) (value : α), map[id]? = some value → key value = id

theorem values_keys (key : α → κ) (map : Std.ExtTreeMap κ α) (filed : Filed key map) :
    (values map).map key = map.keys := by
  rw [values, List.map_map, ← Std.ExtTreeMap.map_fst_toList_eq_keys]
  refine List.map_congr_left fun entry member => ?_
  exact filed entry.1 entry.2 (Std.ExtTreeMap.mem_toList_iff_getElem?_eq_some.mp member)

theorem values_distinct (key : α → κ) (map : Std.ExtTreeMap κ α) (filed : Filed key map) :
    ((values map).map key).Nodup := by
  rw [values_keys key map filed]
  exact Std.ExtTreeMap.nodup_keys

-- The distinct keys of a list in order.
def sortedKeys (keys : List κ) : List κ := (Std.ExtTreeSet.ofList keys).toList

omit [Std.TransOrd κ] in
theorem lawful_beq_cmp [DecidableEq κ] : Std.LawfulBEqCmp (compare : κ → κ → Ordering) := ⟨by
  intro a b
  rw [Std.LawfulEqOrd.compare_eq_iff_eq, beq_iff_eq]⟩

theorem mem_of_list (keys : List κ) (id : κ) : id ∈ Std.ExtTreeSet.ofList keys ↔ id ∈ keys := by
  classical
  have lawful := lawful_beq_cmp (κ := κ)
  rw [Std.ExtTreeSet.mem_ofList, List.contains_iff_mem]

theorem mem_insert_many (set : Std.ExtTreeSet κ) (keys : List κ) (id : κ) :
    id ∈ set.insertMany keys ↔ id ∈ set ∨ id ∈ keys := by
  classical
  have lawful := lawful_beq_cmp (κ := κ)
  rw [Std.ExtTreeSet.mem_insertMany_list, List.contains_iff_mem]

theorem mem_filter (set : Std.ExtTreeSet κ) (keep : κ → Bool) (id : κ) : id ∈ set.filter keep ↔ id ∈ set ∧ keep id = true := by
  rw [Std.ExtTreeSet.mem_filter]
  constructor
  · intro ⟨inside, kept⟩
    rw [Std.ExtTreeSet.get_eq] at kept
    exact ⟨inside, kept⟩
  · intro ⟨inside, kept⟩
    refine ⟨inside, ?_⟩
    rw [Std.ExtTreeSet.get_eq]
    exact kept

theorem mem_sorted_keys (keys : List κ) (id : κ) : id ∈ sortedKeys keys ↔ id ∈ keys := by
  rw [sortedKeys, Std.ExtTreeSet.mem_toList, mem_of_list]

omit [Std.LawfulEqOrd κ] in
theorem sorted_keys_ordered (keys : List κ) : (sortedKeys keys).Pairwise fun a b => compare a b = .lt :=
  Std.ExtTreeSet.ordered_toList

theorem sorted_keys_congr (left right : List κ) (same : ∀ id, id ∈ left ↔ id ∈ right) :
    sortedKeys left = sortedKeys right := by
  have equal : Std.ExtTreeSet.ofList left = Std.ExtTreeSet.ofList right := by
    refine Std.ExtTreeSet.ext_mem fun id => ?_
    have members := (mem_sorted_keys left id).trans ((same id).trans (mem_sorted_keys right id).symm)
    rwa [sortedKeys, Std.ExtTreeSet.mem_toList, sortedKeys, Std.ExtTreeSet.mem_toList] at members
  rw [sortedKeys, equal, sortedKeys]

-- Maps over the same keys list them alike.
theorem keys_congr {β : Type} (left : Std.ExtTreeMap κ α) (right : Std.ExtTreeMap κ β)
    (same : ∀ id : κ, (left[id]?).isSome = (right[id]?).isSome) : left.keys = right.keys := by
  have members : ∀ id, id ∈ left.keys ↔ id ∈ right.keys := by
    intro id
    rw [Std.ExtTreeMap.mem_keys, Std.ExtTreeMap.mem_keys, Std.ExtTreeMap.mem_iff_isSome_getElem?,
      Std.ExtTreeMap.mem_iff_isSome_getElem?, same]
  have apart : ∀ a b : κ, a ∈ left.keys → b ∈ right.keys → compare a b = .lt → compare b a = .lt → a = b := by
    intro a b _ _ before after
    have swapped : compare a b = (compare b a).swap := Std.OrientedCmp.eq_swap
    rw [swapped, after] at before
    cases before
  exact ((List.perm_ext_iff_of_nodup Std.ExtTreeMap.nodup_keys Std.ExtTreeMap.nodup_keys).mpr members).eq_of_pairwise
    apart Std.ExtTreeMap.ordered_keys Std.ExtTreeMap.ordered_keys

variable [DecidableEq κ]

theorem lookup_insert (map : Std.ExtTreeMap κ α) (id other : κ) (value : α) :
    (map.insert id value)[other]? = if other = id then some value else map[other]? := by
  rw [Std.ExtTreeMap.getElem?_insert]
  by_cases same : id = other
  · rw [if_pos (Std.LawfulEqOrd.compare_eq_iff_eq.mpr same), if_pos same.symm]
  · rw [if_neg (mt Std.LawfulEqOrd.compare_eq_iff_eq.mp same), if_neg (Ne.symm same)]

theorem lookup_erase (map : Std.ExtTreeMap κ α) (id other : κ) :
    (map.erase id)[other]? = if other = id then none else map[other]? := by
  rw [Std.ExtTreeMap.getElem?_erase]
  by_cases same : id = other
  · rw [if_pos (Std.LawfulEqOrd.compare_eq_iff_eq.mpr same), if_pos same.symm]
  · rw [if_neg (mt Std.LawfulEqOrd.compare_eq_iff_eq.mp same), if_neg (Ne.symm same)]

theorem single_to_list (id : κ) (value : α) : ((∅ : Std.ExtTreeMap κ α).insert id value).toList = [(id, value)] := by
  have count : ((∅ : Std.ExtTreeMap κ α).insert id value).toList.length = 1 := by
    rw [Std.ExtTreeMap.length_toList, Std.ExtTreeMap.size_insert, Std.ExtTreeMap.contains_empty, if_neg Bool.false_ne_true,
      Std.ExtTreeMap.size_empty]
  obtain ⟨entry, only⟩ := List.length_eq_one_iff.mp count
  have listed : (id, value) ∈ ((∅ : Std.ExtTreeMap κ α).insert id value).toList :=
    Std.ExtTreeMap.mem_toList_iff_getElem?_eq_some.mpr ((lookup_insert _ _ _ _).trans (if_pos rfl))
  rw [only] at listed ⊢
  rw [List.mem_singleton.mp listed]

theorem lookup_modify (map : Std.ExtTreeMap κ α) (id other : κ) (change : α → α) :
    (map.modify id change)[other]? = if other = id then map[other]?.map change else map[other]? := by
  rw [Std.ExtTreeMap.getElem?_modify]
  by_cases same : id = other
  · rw [if_pos (Std.LawfulEqOrd.compare_eq_iff_eq.mpr same), if_pos same.symm, same]
  · rw [if_neg (mt Std.LawfulEqOrd.compare_eq_iff_eq.mp same), if_neg (Ne.symm same)]

theorem collect_cases (key : α → κ) (check : α → Except ε Unit) (repeated : α → ε) (values : List α)
    (map : Std.ExtTreeMap κ α) :
    match collect key check repeated values map with
    | .error _ => ¬ Collectable key check map values
    | .ok result => Collectable key check map values ∧ ∀ id, result[id]? = (find key values id).or map[id]? := by
  induction values generalizing map with
  | nil => exact ⟨⟨fun _ member => absurd member List.not_mem_nil, List.nodup_nil,
      fun _ member => absurd member List.not_mem_nil⟩, fun id => rfl⟩
  | cons head rest ih =>
      rw [collect]
      cases checked : check head with
      | error reason =>
          intro whole
          have passed := whole.passes head List.mem_cons_self
          rw [checked] at passed
          cases passed
      | ok _ =>
          by_cases present : map.contains (key head) = true
          · simp only [present, if_true]
            intro whole
            exact whole.fresh head List.mem_cons_self present
          · have absent : key head ∉ map := fun member => present member
            have split := collectable_cons key check map head rest checked absent
            have later := ih (map.insert (key head) head)
            simp only [present, if_false, Bool.false_eq_true]
            cases outcome : collect key check repeated rest (map.insert (key head) head) with
            | error reason => simpa only [outcome, split] using later
            | ok result =>
                simp only [outcome] at later
                refine ⟨split.mpr later.1, fun id => ?_⟩
                rw [later.2 id, lookup_insert, find_cons]
                by_cases same : key head = id
                · have missing : find key rest id = none := by
                    rw [find_none, ← same]
                    exact (List.nodup_cons.mp (split.mpr later.1).distinct).1
                  rw [if_pos same.symm, if_pos same, missing]
                  rfl
                · rw [if_neg (Ne.symm same), if_neg same]

theorem collect_ok_iff (key : α → κ) (check : α → Except ε Unit) (repeated : α → ε) (list : List α) :
    (∃ map, collect key check repeated list ∅ = .ok map) ↔
      (∀ value ∈ list, check value = .ok ()) ∧ (list.map key).Nodup := by
  have cases := collect_cases key check repeated list ∅
  constructor
  · rintro ⟨map, outcome⟩
    rw [outcome] at cases
    exact ⟨cases.1.passes, cases.1.distinct⟩
  · rintro ⟨passes, distinct⟩
    cases outcome : collect key check repeated list ∅ with
    | ok map => exact ⟨map, rfl⟩
    | error reason =>
        rw [outcome] at cases
        exact absurd ⟨passes, distinct, fun _ _ => Std.ExtTreeMap.not_mem_empty⟩ cases

theorem collect_lookup (key : α → κ) (check : α → Except ε Unit) (repeated : α → ε) (list : List α)
    (map : Std.ExtTreeMap κ α) (collected : collect key check repeated list ∅ = .ok map) (id : κ) :
    map[id]? = find key list id := by
  have cases := collect_cases key check repeated list ∅
  rw [collected] at cases
  rw [cases.2 id, Std.ExtTreeMap.getElem?_empty, Option.or_none]

theorem find_values (key : α → κ) (map : Std.ExtTreeMap κ α) (filed : Filed key map) (id : κ) :
    find key (values map) id = map[id]? := by
  cases stored : map[id]? with
  | none =>
      rw [find_none, values_keys key map filed, Std.ExtTreeMap.mem_keys, Std.ExtTreeMap.mem_iff_isSome_getElem?, stored]
      exact Bool.false_ne_true
  | some value =>
      have member : value ∈ values map := List.mem_map_of_mem (f := Prod.snd)
        (Std.ExtTreeMap.mem_toList_iff_getElem?_eq_some.mpr stored)
      rw [← filed id value stored]
      exact find_of_mem key (values map) value (values_distinct key map filed) member

end Maps

section Replaced

variable {κ α ε : Type} [Ord κ] [Std.TransOrd κ] [Std.LawfulEqOrd κ] [DecidableEq κ]

-- Put a value in the place of what is filed under a key, its absence included.
def put (map : Std.ExtTreeMap κ α) (id : κ) : Option α → Std.ExtTreeMap κ α
  | none => map.erase id
  | some value => map.insert id value

theorem lookup_put (map : Std.ExtTreeMap κ α) (id other : κ) (value : Option α) :
    (put map id value)[other]? = if other = id then value else map[other]? := by
  cases value with
  | none => exact lookup_erase map id other
  | some value => exact lookup_insert map id other value

-- Put the value that belongs under each of the keys in turn. The first key without one ends the pass.
def replaceAll (next : κ → Except ε (Option α)) : List κ → Std.ExtTreeMap κ α → Except ε (Std.ExtTreeMap κ α)
  | [], map => .ok map
  | id :: rest, map =>
      match next id with
      | .error reason => .error reason
      | .ok value => replaceAll next rest (put map id value)

omit [Std.LawfulEqOrd κ] [DecidableEq κ] in
theorem replace_all_ok_iff (next : κ → Except ε (Option α)) (ids : List κ) (map : Std.ExtTreeMap κ α) :
    (∃ final, replaceAll next ids map = .ok final) ↔ ∀ id ∈ ids, ∃ value, next id = .ok value := by
  induction ids generalizing map with
  | nil => exact iff_of_true ⟨map, rfl⟩ fun _ member => absurd member List.not_mem_nil
  | cons id rest ih =>
      rw [List.forall_mem_cons, replaceAll]
      cases answer : next id with
      | error reason => simp
      | ok value =>
          have known : ∃ held, (Except.ok value : Except ε (Option α)) = .ok held := ⟨value, rfl⟩
          exact (ih _).trans (and_iff_right known).symm

theorem replace_all_lookup (next : κ → Except ε (Option α)) (held : κ → Option α) (ids : List κ) (map final : Std.ExtTreeMap κ α)
    (answers : ∀ id ∈ ids, next id = .ok (held id)) (run : replaceAll next ids map = .ok final) (other : κ) :
    final[other]? = if other ∈ ids then held other else map[other]? := by
  induction ids generalizing map with
  | nil =>
      cases run
      rfl
  | cons id rest ih =>
      have answer := answers id List.mem_cons_self
      simp only [replaceAll, answer] at run
      rw [ih _ (fun id member => answers id (List.mem_cons_of_mem _ member)) run, lookup_put]
      by_cases later : other ∈ rest
      · rw [if_pos later, if_pos (List.mem_cons_of_mem _ later)]
      · by_cases same : other = id
        · rw [if_neg later, if_pos same, if_pos (same ▸ List.mem_cons_self), same]
        · rw [if_neg later, if_neg same, if_neg (by rw [List.mem_cons, not_or]; exact ⟨same, later⟩)]

end Replaced

theorem destutter_images {α β : Type} [DecidableEq β] (image : α → β) (items : List α) (result : β) :
    (∃ item ∈ items.destutter fun left right => image left ≠ image right, image item = result) ↔
      ∃ item ∈ items, image item = result := by
  have later : ∀ (rest : List α) (head : α),
    (∃ item ∈ rest.destutter' (fun left right => image left ≠ image right) head, image item = result) ↔
      ∃ item ∈ head :: rest, image item = result := by
    intro rest
    induction rest with
    | nil => simp
    | cons next rest ih =>
        intro head
        by_cases apart : image head ≠ image next
        · simp only [List.destutter', if_pos apart, List.exists_mem_cons_iff, ih]
        · rw [List.destutter', if_neg apart, ih, List.exists_mem_cons_iff, List.exists_mem_cons_iff, List.exists_mem_cons_iff]
          rw [not_not] at apart
          rw [← apart, or_self_left]
  cases items with
  | nil => simp
  | cons head rest => exact later rest head

-- A sorted list without its repetitions is sorted strictly.
theorem destutter_strict {α β : Type} [LinearOrder β] (image : α → β) (items : List α)
    (sorted : items.Pairwise fun left right => image left ≤ image right) :
    (items.destutter fun left right => image left ≠ image right).Pairwise fun left right => image left < image right := by
  have chain := List.isChain_iff_getElem.mp (List.isChain_destutter (fun left right : α => image left ≠ image right) items)
  have kept := List.isChain_iff_getElem.mp
    (sorted.sublist (List.destutter_sublist (fun left right : α => image left ≠ image right) items)).isChain
  have less : Trans (fun left right : α => image left < image right) (fun left right : α => image left < image right)
      (fun left right : α => image left < image right) := ⟨lt_trans⟩
  exact List.isChain_iff_pairwise.mp (List.isChain_iff_getElem.mpr fun place bound =>
    lt_of_le_of_ne (kept place bound) (chain place bound))

section Distinct

variable {κ α β : Type} [Ord κ] [Std.TransOrd κ] [Std.LawfulEqOrd κ] [DecidableEq κ]

omit [Ord κ] [Std.TransOrd κ] [Std.LawfulEqOrd κ] [DecidableEq κ] in
theorem same_length_iff (left right : List κ) (distinct : left.Nodup) (same : ∀ id, id ∈ left ↔ id ∈ right) :
    left.length = right.length ↔ right.Nodup := by
  constructor
  · intro equal
    have part : left.Subperm right := List.Nodup.subperm distinct fun id member => (same id).mp member
    exact (part.perm_of_length_le (Nat.le_of_eq equal.symm)).nodup_iff.mp distinct
  · intro other
    exact ((List.perm_ext_iff_of_nodup distinct other).mpr same).length_eq

omit [DecidableEq κ] in
theorem sorted_keys_nodup (keys : List κ) : (sortedKeys keys).Nodup := by
  refine (sorted_keys_ordered keys).imp fun {a b} less same => ?_
  rw [same, Std.ReflOrd.compare_self] at less
  cases less

omit [DecidableEq κ] in
theorem sorted_keys_many (keys : List κ) : 1 < (sortedKeys keys).length ↔ ∃ a ∈ keys, ∃ b ∈ keys, a ≠ b := by
  constructor
  · intro many
    obtain ⟨a, b, rest, shape⟩ : ∃ a b rest, sortedKeys keys = a :: b :: rest := by
      match sortedKeys keys, many with
      | a :: b :: rest, _ => exact ⟨a, b, rest, rfl⟩
    have distinct := sorted_keys_nodup keys
    rw [shape, List.nodup_cons, List.mem_cons, not_or] at distinct
    refine ⟨a, (mem_sorted_keys keys a).mp (by simp [shape]), b, (mem_sorted_keys keys b).mp (by simp [shape]), distinct.1.1⟩
  · rintro ⟨a, first, b, second, apart⟩
    have pair : [a, b].Nodup := by simp [apart]
    refine pair.length_le_of_subset (fun id member => ?_)
    rw [mem_sorted_keys]
    rcases List.mem_pair.mp member with rfl | rfl
    · exact first
    · exact second

-- Collected into a map: of two items with one key the later one stays.
def index (key : α → κ) (value : α → β) (items : List α) : Std.ExtTreeMap κ β :=
  items.foldl (fun map item => map.insert (key item) (value item)) ∅

omit [Std.LawfulEqOrd κ] [DecidableEq κ] in
theorem index_append (key : α → κ) (value : α → β) (items : List α) (item : α) :
    index key value (items ++ [item]) = (index key value items).insert (key item) (value item) := by
  rw [index, List.foldl_append, index]
  rfl

theorem index_from (key : α → κ) (value : α → β) (items : List α) (id : κ) (result : β)
    (found : (index key value items)[id]? = some result) : ∃ item ∈ items, key item = id ∧ value item = result := by
  induction items using List.reverseRecOn with
  | nil => cases found
  | append_singleton items item ih =>
      rw [index_append, lookup_insert] at found
      by_cases same : id = key item
      · rw [if_pos same] at found
        exact ⟨item, by simp, same.symm, Option.some.inj found⟩
      · rw [if_neg same] at found
        obtain ⟨other, member, facts⟩ := ih found
        exact ⟨other, List.mem_append_left _ member, facts⟩

theorem index_some (key : α → κ) (value : α → β) (items : List α) (item : α) (member : item ∈ items) :
    ∃ result, (index key value items)[key item]? = some result := by
  induction items using List.reverseRecOn with
  | nil => cases member
  | append_singleton items last ih =>
      rw [index_append, lookup_insert]
      by_cases same : key item = key last
      · exact ⟨_, if_pos same⟩
      · rw [if_neg same]
        rcases List.mem_append.mp member with earlier | here
        · exact ih earlier
        · exact absurd (congrArg key (List.mem_singleton.mp here)) same

theorem mem_index_keys (key : α → κ) (value : α → β) (items : List α) (id : κ) :
    id ∈ (index key value items).keys ↔ id ∈ items.map key := by
  rw [Std.ExtTreeMap.mem_keys, Std.ExtTreeMap.mem_iff_isSome_getElem?, Option.isSome_iff_exists, List.mem_map]
  constructor
  · rintro ⟨result, found⟩
    obtain ⟨item, member, same, _⟩ := index_from key value items id result found
    exact ⟨item, member, same⟩
  · rintro ⟨item, member, rfl⟩
    exact index_some key value items item member

theorem index_size_iff (key : α → κ) (value : α → β) (items : List α) :
    (index key value items).size = items.length ↔ (items.map key).Nodup := by
  rw [← Std.ExtTreeMap.length_keys, ← List.length_map (f := key)]
  exact same_length_iff _ _ Std.ExtTreeMap.nodup_keys (mem_index_keys key value items)

theorem index_lookup (key : α → κ) (value : α → β) (items : List α) (distinct : (items.map key).Nodup) (item : α)
    (member : item ∈ items) :
    (index key value items)[key item]? = some (value item) := by
  obtain ⟨result, found⟩ := index_some key value items item member
  obtain ⟨other, among, same, rfl⟩ := index_from key value items _ result found
  rw [found, List.inj_on_of_nodup_map distinct among member same]

end Distinct

end Keyed
