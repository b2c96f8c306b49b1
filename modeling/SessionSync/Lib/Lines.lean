import Mathlib.Data.List.Basic

set_option autoImplicit false

namespace SessionSync.Lib

variable {α : Type} (sep : α)

def Terminated (line : List α) : Prop := ∃ body, line = body ++ [sep] ∧ sep ∉ body

def Unterminated (line : List α) : Prop := line ≠ [] ∧ sep ∉ line

-- The lists of pieces that a stream can split into: only the last may lack its separator.
def Lines : List (List α) → Prop
  | [] => True
  | [line] => Terminated sep line ∨ Unterminated sep line
  | line :: next :: rest => Terminated sep line ∧ Lines (next :: rest)

-- Lines that end alike.
def EndAlike (left right : List α) : Prop :=
  (Terminated sep left → Terminated sep right) ∧ (Unterminated sep left → Unterminated sep right)

variable {sep}

theorem lines_cons (line : List α) (rest : List (List α)) (ended : Terminated sep line) (lines : Lines sep rest) :
    Lines sep (line :: rest) := by
  cases rest with
  | nil => exact Or.inl ended
  | cons next rest => exact ⟨ended, lines⟩

theorem lines_alike (left right : List (List α)) (alike : List.Forall₂ (EndAlike sep) left right)
    (lines : Lines sep left) : Lines sep right := by
  induction alike with
  | nil => trivial
  | cons first rest ih =>
      cases rest with
      | nil => exact lines.imp first.1 first.2
      | cons next rest => exact ⟨first.1 lines.1, ih lines.2⟩

theorem unterminated_cons (item : α) (line : List α) (other : item ≠ sep) (absent : sep ∉ line) :
    Unterminated sep (item :: line) := by
  refine ⟨List.cons_ne_nil _ _, ?_⟩
  simp only [List.mem_cons, not_or]
  exact ⟨other.symm, absent⟩

theorem terminated_cons (item : α) (line : List α) (other : item ≠ sep) (ended : Terminated sep line) :
    Terminated sep (item :: line) := by
  obtain ⟨body, shape, absent⟩ := ended
  exact ⟨item :: body, by rw [shape, List.cons_append], (unterminated_cons item body other absent).2⟩

variable [DecidableEq α]

variable (sep) in
-- Reading up to and including the next separator, call after call, until nothing is left.
def splitAfter : List α → List (List α)
  | [] => []
  | item :: rest =>
      if item = sep then [item] :: splitAfter rest
      else
        match splitAfter rest with
        | [] => [[item]]
        | line :: lines => (item :: line) :: lines

theorem split_terminated (body rest : List α) (absent : sep ∉ body) :
    splitAfter sep (body ++ sep :: rest) = (body ++ [sep]) :: splitAfter sep rest := by
  induction body with
  | nil => simp [splitAfter]
  | cons item body ih =>
      simp only [List.mem_cons, not_or] at absent
      have other : item ≠ sep := fun same => absent.1 same.symm
      simp [splitAfter, other, ih absent.2]

theorem split_unterminated (line : List α) (last : Unterminated sep line) : splitAfter sep line = [line] := by
  obtain ⟨nonempty, absent⟩ := last
  induction line with
  | nil => exact absurd rfl nonempty
  | cons item rest ih =>
      simp only [List.mem_cons, not_or] at absent
      have other : item ≠ sep := fun same => absent.1 same.symm
      cases rest with
      | nil => simp [splitAfter, other]
      | cons next rest => rw [splitAfter, if_neg other, ih (List.cons_ne_nil _ _) absent.2]

theorem split_flatten (stream : List α) : (splitAfter sep stream).flatten = stream := by
  induction stream with
  | nil => rfl
  | cons item rest ih =>
      unfold splitAfter
      by_cases found : item = sep
      · simp [found, ih]
      · cases tail : splitAfter sep rest with
        | nil =>
            rw [tail] at ih
            simp [found, ← ih]
        | cons line lines =>
            rw [tail] at ih
            simp [found, ← ih]

theorem split_none (stream : List α) (none : splitAfter sep stream = []) : stream = [] := by
  have whole : (splitAfter sep stream).flatten = stream := split_flatten stream
  rw [← whole, none, List.flatten_nil]

theorem split_lines (stream : List α) : Lines sep (splitAfter sep stream) := by
  induction stream with
  | nil => trivial
  | cons item rest ih =>
      unfold splitAfter
      by_cases found : item = sep
      · rw [if_pos found]
        exact lines_cons _ _ ⟨[], by rw [found, List.nil_append], List.not_mem_nil⟩ ih
      · rw [if_neg found]
        cases tail : splitAfter sep rest with
        | nil => exact Or.inr (unterminated_cons item [] found List.not_mem_nil)
        | cons line lines =>
            rw [tail] at ih
            cases lines with
            | nil => exact ih.imp (terminated_cons item line found) fun last => unterminated_cons item line found last.2
            | cons next lines => exact ⟨terminated_cons item line found ih.1, ih.2⟩

-- A list of lines is read back from their concatenation.
theorem split_of_lines (lines : List (List α)) (shape : Lines sep lines) : splitAfter sep lines.flatten = lines := by
  induction lines with
  | nil => rfl
  | cons line rest ih =>
      cases rest with
      | nil =>
          rw [List.flatten_cons, List.flatten_nil, List.append_nil]
          rcases shape with ended | last
          · obtain ⟨body, rfl, absent⟩ := ended
            exact split_terminated body [] absent
          · exact split_unterminated line last
      | cons next rest =>
          obtain ⟨body, rfl, absent⟩ := shape.1
          rw [List.flatten_cons, List.append_assoc, List.singleton_append, split_terminated _ _ absent, ih shape.2]

theorem lines_flatten_inj (left right : List (List α)) (leftLines : Lines sep left) (rightLines : Lines sep right)
    (same : left.flatten = right.flatten) : left = right := by
  rw [← split_of_lines left leftLines, same, split_of_lines right rightLines]

end SessionSync.Lib
