import Mathlib.Data.List.Basic
import Mathlib.Order.Nat

set_option autoImplicit false

namespace SessionSync.Lib

variable {α : Type}

-- The pieces of a stream: none is empty or longer than `size`, and all but the last are full.
def Chunked (size : Nat) : List (List α) → Prop
  | [] => True
  | [piece] => piece ≠ [] ∧ piece.length ≤ size
  | piece :: next :: rest => piece.length = size ∧ piece ≠ [] ∧ Chunked size (next :: rest)

-- Take a full piece as long as there is one.
def chunksOf (size : Nat) (whole : List α) : List (List α) :=
  if stop : whole = [] ∨ size = 0 then [] else whole.take size :: chunksOf size (whole.drop size)
termination_by whole.length
decreasing_by
  rw [not_or] at stop
  have more := List.length_pos_of_ne_nil stop.1
  rw [List.length_drop]
  omega

variable {size : Nat}

theorem chunked_cons (piece : List α) (rest : List (List α)) (full : piece.length = size) (some : piece ≠ [])
    (chunked : Chunked size rest) : Chunked size (piece :: rest) := by
  cases rest with
  | nil => exact ⟨some, full.le⟩
  | cons next rest => exact ⟨full, some, chunked⟩

theorem chunked_tail (piece : List α) (rest : List (List α)) (chunked : Chunked size (piece :: rest)) : Chunked size rest := by
  cases rest with
  | nil => trivial
  | cons next rest => exact chunked.2.2

theorem chunked_head (piece : List α) (rest : List (List α)) (chunked : Chunked size (piece :: rest)) :
    piece ≠ [] ∧ piece.length ≤ size ∧ (rest ≠ [] → piece.length = size) := by
  cases rest with
  | nil => exact ⟨chunked.1, chunked.2, fun more => absurd rfl more⟩
  | cons next rest => exact ⟨chunked.2.1, chunked.1.le, fun _ => chunked.1⟩

theorem chunked_mem (pieces : List (List α)) (chunked : Chunked size pieces) (piece : List α) (member : piece ∈ pieces) :
    piece ≠ [] ∧ piece.length ≤ size := by
  induction pieces with
  | nil => exact absurd member List.not_mem_nil
  | cons head rest ih =>
      rcases List.mem_cons.mp member with rfl | later
      · exact ⟨(chunked_head piece rest chunked).1, (chunked_head piece rest chunked).2.1⟩
      · exact ih (chunked_tail head rest chunked) later

theorem chunked_append (full last : List (List α)) (whole : ∀ piece ∈ full, piece.length = size ∧ piece ≠ [])
    (chunked : Chunked size last) : Chunked size (full ++ last) := by
  induction full with
  | nil => exact chunked
  | cons head rest ih =>
      have first := whole head List.mem_cons_self
      exact chunked_cons head _ first.1 first.2 (ih fun piece member => whole piece (List.mem_cons_of_mem _ member))

theorem chunks_of_nil : chunksOf size ([] : List α) = [] := by
  rw [chunksOf, dif_pos (.inl rfl)]

theorem chunks_of_cons (whole : List α) (more : whole ≠ []) (positive : 0 < size) :
    chunksOf size whole = whole.take size :: chunksOf size (whole.drop size) := by
  rw [chunksOf, dif_neg (by rw [not_or]; exact ⟨more, positive.ne'⟩)]

theorem chunks_flatten (positive : 0 < size) (whole : List α) : (chunksOf size whole).flatten = whole := by
  induction whole using chunksOf.induct size with
  | case1 whole stop =>
      rcases stop with rfl | none
      · rw [chunks_of_nil, List.flatten_nil]
      · exact absurd none positive.ne'
  | case2 whole stop ih =>
      rw [chunks_of_cons whole (fun none => stop (.inl none)) positive, List.flatten_cons, ih, List.take_append_drop]

theorem chunks_chunked (positive : 0 < size) (whole : List α) : Chunked size (chunksOf size whole) := by
  induction whole using chunksOf.induct size with
  | case1 whole stop =>
      rw [chunksOf, dif_pos stop]
      trivial
  | case2 whole stop ih =>
      have more : whole ≠ [] := fun none => stop (.inl none)
      have some : whole.take size ≠ [] := by
        rw [Ne, List.take_eq_nil_iff, not_or]
        exact ⟨positive.ne', more⟩
      rw [chunks_of_cons whole more positive]
      by_cases left : whole.drop size = []
      · rw [left, chunks_of_nil]
        exact ⟨some, List.length_take_le _ _⟩
      · have long : size < whole.length := by
          rw [List.drop_eq_nil_iff, Nat.not_le] at left
          exact left
        exact chunked_cons _ _ (by rw [List.length_take]; omega) some ih

-- There is one way to cut a stream into chunks.
theorem chunked_unique (positive : 0 < size) (pieces : List (List α)) (chunked : Chunked size pieces) :
    pieces = chunksOf size pieces.flatten := by
  induction pieces with
  | nil => rw [List.flatten_nil, chunks_of_nil]
  | cons head rest ih =>
      obtain ⟨some, short, full⟩ := chunked_head head rest chunked
      have later := ih (chunked_tail head rest chunked)
      rw [List.flatten_cons, chunks_of_cons _ (fun none => some (List.append_eq_nil_iff.mp none).1) positive]
      by_cases last : rest = []
      · rw [last, List.flatten_nil, List.append_nil, List.take_of_length_le short, List.drop_of_length_le short, chunks_of_nil]
      · have size_ := full last
        rw [← size_, List.take_left, List.drop_left, size_, ← later]

theorem chunked_count (pieces : List (List α)) (chunked : Chunked size pieces) (bound : Nat)
    (fits : pieces.flatten.length ≤ bound * size) : pieces.length ≤ bound := by
  induction pieces generalizing bound with
  | nil => exact Nat.zero_le _
  | cons head rest ih =>
      obtain ⟨some, _, full⟩ := chunked_head head rest chunked
      have more := List.length_pos_of_ne_nil some
      rw [List.flatten_cons, List.length_append] at fits
      cases bound with
      | zero => omega
      | succ bound =>
          rw [List.length_cons]
          refine Nat.succ_le_succ ?_
          by_cases last : rest = []
          · rw [last]
            exact Nat.zero_le _
          · have size_ := full last
            exact ih (chunked_tail head rest chunked) bound (by rw [Nat.succ_mul] at fits; omega)

theorem chunked_fits (pieces : List (List α)) (chunked : Chunked size pieces) :
    pieces.flatten.length ≤ pieces.length * size := by
  induction pieces with
  | nil => exact Nat.zero_le _
  | cons piece rest ih =>
      have short := (chunked_head piece rest chunked).2.1
      have later := ih (chunked_tail piece rest chunked)
      rw [List.flatten_cons, List.length_append, List.length_cons, Nat.succ_mul]
      omega

end SessionSync.Lib
