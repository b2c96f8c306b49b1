import Mathlib.Data.List.Nodup

set_option autoImplicit false

namespace Chain

variable {κ : Type}

-- A walk along parent pointers. `next` answers none for an unknown node and
-- some none for a node without parent.
def Path (next : κ → Option (Option κ)) : Option κ → List κ → Option κ → Prop
  | start, [], stop => start = stop
  | start, node :: rest, stop => start = some node ∧ ∃ parent, next node = some parent ∧ Path next parent rest stop

theorem path_append (next : κ → Option (Option κ)) (start stop : Option κ) (xs ys : List κ) :
    Path next start (xs ++ ys) stop ↔ ∃ mid, Path next start xs mid ∧ Path next mid ys stop := by
  induction xs generalizing start with
  | nil => exact ⟨fun walk => ⟨start, rfl, walk⟩, fun ⟨mid, same, walk⟩ => same ▸ walk⟩
  | cons node rest ih =>
      constructor
      · intro ⟨first, parent, step, walk⟩
        obtain ⟨mid, left, right⟩ := (ih parent).mp walk
        exact ⟨mid, ⟨first, parent, step, left⟩, right⟩
      · intro ⟨mid, ⟨first, parent, step, left⟩, right⟩
        exact ⟨first, parent, step, (ih parent).mpr ⟨mid, left, right⟩⟩

-- More parent pointers keep every walk.
theorem path_grow (next other : κ → Option (Option κ)) (start stop : Option κ) (xs : List κ)
    (grow : ∀ node parent, next node = some parent → other node = some parent) (walk : Path next start xs stop) :
    Path other start xs stop := by
  induction xs generalizing start with
  | nil => exact walk
  | cons node rest ih =>
      obtain ⟨first, parent, step, walk⟩ := walk
      exact ⟨first, parent, grow node parent step, ih parent walk⟩

-- Two walks from one node agree as far as the shorter one goes.
theorem path_prefix (next : κ → Option (Option κ)) (start mid : Option κ) (xs ys : List κ)
    (short : Path next start xs mid) (whole : Path next start ys none) : ∃ rest, ys = xs ++ rest ∧ Path next mid rest none := by
  induction xs generalizing start ys with
  | nil => exact ⟨ys, rfl, short ▸ whole⟩
  | cons node rest ih =>
      obtain ⟨rfl, parent, step, short⟩ := short
      cases ys with
      | nil => cases whole
      | cons other tail =>
          obtain ⟨same, grand, otherStep, whole⟩ := whole
          cases same
          rw [step] at otherStep
          cases otherStep
          obtain ⟨after, split, walk⟩ := ih parent tail short whole
          exact ⟨after, by rw [split, List.cons_append], walk⟩

theorem path_unique (next : κ → Option (Option κ)) (start : Option κ) (xs ys : List κ)
    (left : Path next start xs none) (right : Path next start ys none) : xs = ys := by
  obtain ⟨rest, split, walk⟩ := path_prefix next start none xs ys left right
  cases rest with
  | nil => rw [split, List.append_nil]
  | cons node rest => cases walk.1

theorem path_from (next : κ → Option (Option κ)) (start stop : Option κ) (xs : List κ) (node : κ)
    (walk : Path next start xs stop) (member : node ∈ xs) :
    ∃ before after, xs = before ++ node :: after ∧ Path next (some node) (node :: after) stop := by
  obtain ⟨before, after, split⟩ := List.append_of_mem member
  rw [split, path_append] at walk
  obtain ⟨mid, _, walk⟩ := walk
  obtain ⟨rfl, tail⟩ := walk
  exact ⟨before, after, split, rfl, tail⟩

-- A walk that reaches a node without parent meets no node twice.
theorem path_nodup (next : κ → Option (Option κ)) (start : Option κ) (xs : List κ)
    (walk : Path next start xs none) : xs.Nodup := by
  induction xs generalizing start with
  | nil => exact List.nodup_nil
  | cons node rest ih =>
      have whole := walk
      obtain ⟨rfl, parent, step, tail⟩ := walk
      refine List.nodup_cons.mpr ⟨fun again => ?_, ih parent tail⟩
      obtain ⟨before, after, split, later⟩ := path_from next parent none rest node tail again
      have equal := path_unique next (some node) _ _ whole later
      have lengths := congrArg List.length equal
      simp only [split, List.length_cons, List.length_append] at lengths
      omega

end Chain
