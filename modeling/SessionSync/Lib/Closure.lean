import Mathlib.Logic.Relation
import Mathlib.Data.List.Basic
import SessionSync.Lib.Keyed

set_option autoImplicit false

namespace Closure

variable {ν : Type} [Ord ν] [Std.TransOrd ν] [Std.LawfulEqOrd ν]

-- The targets of one round: every edge out of the set.
def targets (edges : List (ν × ν)) (seen : Std.ExtTreeSet ν) : List ν :=
  edges.filterMap fun edge => if seen.contains edge.1 then some edge.2 else none

def rounds (edges : List (ν × ν)) : Nat → Std.ExtTreeSet ν → Std.ExtTreeSet ν
  | 0, seen => seen
  | count + 1, seen => rounds edges count (seen.insertMany (targets edges seen))

-- WITH RECURSIVE ... UNION over a finite edge table: as many rounds as there are
-- edges reach the fixed point.
def closure (edges : List (ν × ν)) (roots : List ν) : Std.ExtTreeSet ν :=
  rounds edges edges.length (Std.ExtTreeSet.ofList roots)

def Edge (edges : List (ν × ν)) (a b : ν) : Prop := (a, b) ∈ edges

def Reaches (edges : List (ν × ν)) (roots : List ν) (node : ν) : Prop :=
  ∃ root ∈ roots, Relation.ReflTransGen (Edge edges) root node

def Closed (edges : List (ν × ν)) (seen : Std.ExtTreeSet ν) : Prop := ∀ a b, (a, b) ∈ edges → a ∈ seen → b ∈ seen

-- The edges a further round may still add something by.
def frontier (edges : List (ν × ν)) (seen : Std.ExtTreeSet ν) : List (ν × ν) := edges.filter fun edge => !seen.contains edge.2

omit [Std.LawfulEqOrd ν] in
theorem mem_targets (edges : List (ν × ν)) (seen : Std.ExtTreeSet ν) (node : ν) :
    node ∈ targets edges seen ↔ ∃ owner, (owner, node) ∈ edges ∧ owner ∈ seen := by
  simp only [targets, List.mem_filterMap, Option.ite_none_right_eq_some, Option.some.injEq, Prod.exists,
    Std.ExtTreeSet.contains_iff_mem]
  constructor
  · rintro ⟨owner, target, edge, inside, rfl⟩
    exact ⟨owner, edge, inside⟩
  · rintro ⟨owner, edge, inside⟩
    exact ⟨owner, node, edge, inside, rfl⟩

theorem mem_round (edges : List (ν × ν)) (seen : Std.ExtTreeSet ν) (node : ν) :
    node ∈ seen.insertMany (targets edges seen) ↔ node ∈ seen ∨ ∃ owner, (owner, node) ∈ edges ∧ owner ∈ seen := by
  rw [Keyed.mem_insert_many, mem_targets]

theorem rounds_grow (edges : List (ν × ν)) (count : Nat) (seen : Std.ExtTreeSet ν) (node : ν) (member : node ∈ seen) :
    node ∈ rounds edges count seen := by
  induction count generalizing seen with
  | zero => exact member
  | succ count ih => exact ih _ ((mem_round edges seen node).mpr (.inl member))

theorem rounds_sound (edges : List (ν × ν)) (roots : List ν) (count : Nat) (seen : Std.ExtTreeSet ν)
    (sound : ∀ node ∈ seen, Reaches edges roots node) : ∀ node ∈ rounds edges count seen, Reaches edges roots node := by
  induction count generalizing seen with
  | zero => exact sound
  | succ count ih =>
      refine ih _ fun node member => ?_
      rcases (mem_round edges seen node).mp member with inside | ⟨owner, edge, inside⟩
      · exact sound node inside
      · obtain ⟨root, start, path⟩ := sound owner inside
        exact ⟨root, start, path.tail edge⟩

theorem round_shrinks (edges : List (ν × ν)) (seen : Std.ExtTreeSet ν) (unfinished : ¬ Closed edges seen) :
    (frontier edges (seen.insertMany (targets edges seen))).length < (frontier edges seen).length := by
  simp only [Closed, not_forall] at unfinished
  obtain ⟨owner, node, edge, inside, outside⟩ := unfinished
  have nested : frontier edges (seen.insertMany (targets edges seen)) =
      (frontier edges seen).filter fun edge => !(seen.insertMany (targets edges seen)).contains edge.2 := by
    rw [frontier, frontier, List.filter_filter]
    refine List.filter_congr fun edge _ => ?_
    by_cases old : edge.2 ∈ seen
    · have new := (mem_round edges seen edge.2).mpr (.inl old)
      simp only [Std.ExtTreeSet.contains_iff_mem.mpr new, Bool.not_true, Bool.false_and]
    · simp only [Bool.eq_false_iff.mpr (mt Std.ExtTreeSet.contains_iff_mem.mp old), Bool.not_false, Bool.and_true]
  rw [nested, List.length_filter_lt_length_iff_exists]
  have reached := (mem_round edges seen node).mpr (.inr ⟨owner, edge, inside⟩)
  refine ⟨(owner, node), List.mem_filter.mpr ⟨edge, ?_⟩, ?_⟩
  · simp only [Bool.eq_false_iff.mpr (mt Std.ExtTreeSet.contains_iff_mem.mp outside), Bool.not_false]
  · simp only [Std.ExtTreeSet.contains_iff_mem.mpr reached, Bool.not_true, Bool.false_eq_true, not_false_eq_true]

theorem rounds_fixed (edges : List (ν × ν)) (count : Nat) (seen : Std.ExtTreeSet ν) (closed : Closed edges seen) :
    rounds edges count seen = seen := by
  induction count generalizing seen with
  | zero => rfl
  | succ count ih =>
      have same : seen.insertMany (targets edges seen) = seen := by
        refine Std.ExtTreeSet.ext_mem fun node => ?_
        rw [mem_round]
        refine ⟨fun member => ?_, .inl⟩
        rcases member with inside | ⟨owner, edge, inside⟩
        · exact inside
        · exact closed owner node edge inside
      rw [rounds, same, ih seen closed]

theorem rounds_closed (edges : List (ν × ν)) (count : Nat) (seen : Std.ExtTreeSet ν)
    (enough : (frontier edges seen).length ≤ count) : Closed edges (rounds edges count seen) := by
  induction count generalizing seen with
  | zero =>
      intro owner node edge inside
      by_contra outside
      have listed : (owner, node) ∈ frontier edges seen := by
        refine List.mem_filter.mpr ⟨edge, ?_⟩
        rw [Bool.not_eq_true', Bool.eq_false_iff]
        exact mt Std.ExtTreeSet.contains_iff_mem.mp outside
      rw [List.length_eq_zero_iff.mp (Nat.le_zero.mp enough)] at listed
      cases listed
  | succ count ih =>
      by_cases closed : Closed edges seen
      · rw [rounds_fixed edges (count + 1) seen closed]
        exact closed
      · have shrinks := round_shrinks edges seen closed
        exact ih _ (by omega)

theorem mem_closure (edges : List (ν × ν)) (roots : List ν) (node : ν) :
    node ∈ closure edges roots ↔ Reaches edges roots node := by
  have start := Keyed.mem_of_list roots
  constructor
  · exact rounds_sound edges roots edges.length _ (fun node member => ⟨node, (start node).mp member, .refl⟩) node
  · rintro ⟨root, member, path⟩
    have closed := rounds_closed edges edges.length (Std.ExtTreeSet.ofList roots) (List.length_filter_le _ _)
    induction path with
    | refl => exact rounds_grow edges _ _ root ((start root).mpr member)
    | tail _ edge ih => exact closed _ _ edge ih

end Closure
