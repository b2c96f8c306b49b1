import Mathlib.Data.List.Pairwise

set_option autoImplicit false

namespace Roots

variable {α : Type} (under : α → α → Bool)

-- Each item that is not under one of the roots so far becomes one.
def reduce : List α → List α → List α
  | roots, [] => roots
  | roots, item :: rest => if roots.any (under item) then reduce roots rest else reduce (roots ++ [item]) rest

-- Neither is under the other.
def Apart (one other : α) : Prop := under one other = false ∧ under other one = false

-- Being under something, as in a forest whose deeper nodes are larger.
structure Nesting (size : α → Nat) : Prop where
  refl : ∀ item, under item item = true
  trans : ∀ item mid root, under item mid = true → under mid root = true → under item root = true
  larger : ∀ item root, under item root = true → size root ≤ size item
  level : ∀ item root, under item root = true → size item = size root → under root item = true
  forest : ∀ item one other, under item one = true → under item other = true → under one other = true ∨ under other one = true

instance apartSymmetric : Std.Symm (Apart under) := ⟨fun _ _ apart => ⟨apart.2, apart.1⟩⟩

theorem reduce_keeps (roots items : List α) (root : α) (member : root ∈ roots) : root ∈ reduce under roots items := by
  induction items generalizing roots with
  | nil => exact member
  | cons item rest ih =>
      rw [reduce]
      by_cases covered : roots.any (under item) = true
      · rw [if_pos covered]
        exact ih roots member
      · rw [if_neg covered]
        exact ih _ (List.mem_append_left _ member)

theorem reduce_among (roots items : List α) (root : α) (member : root ∈ reduce under roots items) : root ∈ roots ∨ root ∈ items := by
  induction items generalizing roots with
  | nil => exact .inl member
  | cons item rest ih =>
      rw [reduce] at member
      by_cases covered : roots.any (under item) = true
      · rw [if_pos covered] at member
        exact (ih roots member).imp_right (List.mem_cons_of_mem _)
      · rw [if_neg covered] at member
        rcases ih _ member with early | late
        · rcases List.mem_append.mp early with before | here
          · exact .inl before
          · exact .inr (List.mem_singleton.mp here ▸ List.mem_cons_self)
        · exact .inr (List.mem_cons_of_mem _ late)

variable {under} {size : α → Nat} (nesting : Nesting under size)

include nesting

theorem reduce_covers (roots items : List α) (item : α) (member : item ∈ items) :
    ∃ root ∈ reduce under roots items, under item root = true := by
  induction items generalizing roots with
  | nil => cases member
  | cons first rest ih =>
      rw [reduce]
      by_cases covered : roots.any (under first) = true
      · rw [if_pos covered]
        rcases List.mem_cons.mp member with rfl | later
        · obtain ⟨root, known, below⟩ := List.any_eq_true.mp covered
          exact ⟨root, reduce_keeps under roots rest root known, below⟩
        · exact ih roots later
      · rw [if_neg covered]
        rcases List.mem_cons.mp member with rfl | later
        · exact ⟨item, reduce_keeps under _ rest item (List.mem_append_right _ List.mem_cons_self), nesting.refl item⟩
        · exact ih _ later

-- The smaller items come first, so that none is under a later root.
theorem reduce_apart (roots items : List α) (sorted : items.Pairwise fun one other => size one ≤ size other)
    (smaller : ∀ root ∈ roots, ∀ item ∈ items, size root ≤ size item) (apart : roots.Pairwise (Apart under)) :
    (reduce under roots items).Pairwise (Apart under) := by
  induction items generalizing roots with
  | nil => exact apart
  | cons item rest ih =>
      obtain ⟨least, tail⟩ := List.pairwise_cons.mp sorted
      rw [reduce]
      by_cases covered : roots.any (under item) = true
      · rw [if_pos covered]
        exact ih roots tail (fun root known other later => smaller root known other (List.mem_cons_of_mem _ later)) apart
      · rw [if_neg covered]
        have free : ∀ root ∈ roots, under item root = false := fun root known => by
          rw [← Bool.not_eq_true]
          exact fun below => covered (List.any_eq_true.mpr ⟨root, known, below⟩)
        refine ih _ tail (fun root known other later => ?_) (List.pairwise_append.mpr ⟨apart, List.pairwise_singleton _ _, ?_⟩)
        · rcases List.mem_append.mp known with before | here
          · exact smaller root before other (List.mem_cons_of_mem _ later)
          · rw [List.mem_singleton.mp here]
            exact least other later
        · intro root known other here
          rw [List.mem_singleton.mp here]
          refine ⟨?_, free root known⟩
          rw [← Bool.not_eq_true]
          intro above
          have same := Nat.le_antisymm (smaller root known item List.mem_cons_self) (nesting.larger root item above)
          exact absurd (nesting.level root item above same) (by rw [free root known]; exact Bool.false_ne_true)

-- Roots that are apart share nothing that is under them.
theorem root_unique (roots : List α) (apart : roots.Pairwise (Apart under)) (item one other : α) (first : one ∈ roots)
    (second : other ∈ roots) (belowOne : under item one = true) (belowOther : under item other = true) : one = other := by
  by_contra differ
  obtain ⟨notBelow, notAbove⟩ := List.Pairwise.forall apart first second differ
  rcases nesting.forest item one other belowOne belowOther with below | above
  · exact Bool.false_ne_true (notBelow.symm.trans below)
  · exact Bool.false_ne_true (notAbove.symm.trans above)

end Roots
