import Mathlib.Data.List.DropRight
import SessionSync.Workspace.PathRoundTrip

set_option autoImplicit false

namespace SessionSync.Workspace

open SessionSync.Core Checked Config

-- A path whose normal form is read as it stands.
def Stable (path : List Char) : Prop := normalizePathSyntax (normalizePathSyntax path) = normalizePathSyntax path

instance (path : List Char) : Decidable (Stable path) := inferInstanceAs (Decidable (_ = _))

-- A verbatim prefix that stands for a server or a drive.
def reduces (path : List Char) : Bool :=
  "//?/".toList.isPrefixOf path && (((path.drop 4).take 4).map Char.toLower = "unc/".toList || hasDrive (path.drop 4))

section Reading

theorem syntax_slashed (path : List Char) : '\\' ∉ normalizePathSyntax path := by
  intro member
  refine slashes_slashed path ?_
  unfold normalizePathSyntax at member
  dsimp only at member
  split at member
  · split at member
    · rcases List.mem_append.mp member with slash | later
      · exact absurd slash (by decide)
      · exact List.mem_of_mem_drop (List.mem_of_mem_drop later)
    · split at member
      · exact List.mem_of_mem_drop member
      · exact member
  · exact member

-- Reading takes something away exactly where there is such a prefix.
theorem syntax_fixed (path : List Char) (slashed : '\\' ∉ path) : normalizePathSyntax path = path ↔ reduces path = false := by
  unfold normalizePathSyntax reduces
  dsimp only
  rw [slashes_plain path slashed]
  by_cases verbatim : "//?/".toList.isPrefixOf path = true
  · have long := (List.isPrefixOf_iff_prefix.mp verbatim).length_le
    rw [if_pos verbatim, verbatim, Bool.true_and, Bool.or_eq_false_iff, decide_eq_false_iff_not]
    change 4 ≤ path.length at long
    by_cases server : ((path.drop 4).take 4).map Char.toLower = "unc/".toList
    · rw [if_pos server]
      refine iff_of_false (fun same => ?_) fun none => none.1 server
      have length := congrArg List.length same
      have rest := congrArg List.length server
      rw [List.length_append, List.length_drop, List.length_drop] at length
      rw [List.length_map, List.length_take, List.length_drop] at rest
      change 2 + _ = _ at length
      change _ = 4 at rest
      omega
    · rw [if_neg server]
      by_cases drive : hasDrive (path.drop 4) = true
      · rw [if_pos drive]
        refine iff_of_false (fun same => ?_) fun none => Bool.false_ne_true (none.2.symm.trans drive)
        have length := congrArg List.length same
        rw [List.length_drop] at length
        omega
      · rw [if_neg drive]
        exact iff_of_true rfl ⟨server, by simpa using drive⟩
  · rw [Bool.not_eq_true] at verbatim
    rw [verbatim]
    exact iff_of_true rfl rfl

theorem prefix_lower (pattern path : List Char) (plain : ∀ c ∈ pattern, c.toNat < 65) :
    pattern.isPrefixOf (path.map Char.toLower) = pattern.isPrefixOf path := by
  induction pattern generalizing path with
  | nil => cases path <;> rfl
  | cons first rest ih =>
      obtain ⟨here, later⟩ := List.forall_mem_cons.mp plain
      cases path with
      | nil => rfl
      | cons c path =>
          rw [List.map_cons, List.isPrefixOf, List.isPrefixOf, ih path later]
          congr 1
          rw [Bool.eq_iff_iff, beq_iff_eq, beq_iff_eq, eq_comm, lower_eq_iff c first here, eq_comm]

theorem drive_append (front rest : List Char) (drive : hasDrive front = true) : hasDrive (front ++ rest) = true := by
  cases front with
  | nil => cases drive
  | cons first others =>
      cases others with
      | nil => cases drive
      | cons second others => exact drive

theorem lower_again (c : Char) : c.toLower.toLower = c.toLower := by
  rcases lower_cases c with same | ⟨low, high, moved⟩
  · rw [same, same]
  · rcases lower_cases c.toLower with same | ⟨again, _, _⟩
    · exact same
    · omega

theorem reduces_lower (path : List Char) : reduces (path.map Char.toLower) = reduces path := by
  have plain : ∀ c ∈ "//?/".toList, c.toNat < 65 := by
    rw [show "//?/".toList = ['/', '/', '?', '/'] from String.toList_ofList]
    simp
  rw [reduces, prefix_lower "//?/".toList path plain, ← List.map_drop, has_drive_lower, ← List.map_take, List.map_map, reduces]
  have twice : Char.toLower ∘ Char.toLower = Char.toLower := funext lower_again
  rw [twice]

-- What a path reads away with, so does every longer one.
theorem reduces_longer (front path : List Char) (inside : front <+: path) (known : reduces front = true) : reduces path = true := by
  obtain ⟨more, rfl⟩ := inside
  unfold reduces at known ⊢
  rw [Bool.and_eq_true, Bool.or_eq_true, decide_eq_true_iff] at known ⊢
  obtain ⟨verbatim, rest⟩ := known
  have starts := List.isPrefixOf_iff_prefix.mp verbatim
  have long : 4 ≤ front.length := starts.length_le
  refine ⟨List.isPrefixOf_iff_prefix.mpr (starts.trans (List.prefix_append _ _)), ?_⟩
  rw [List.drop_append_of_le_length long]
  rcases rest with server | drive
  · left
    have four := congrArg List.length server
    rw [List.length_map, List.length_take] at four
    change _ = 4 at four
    rwa [List.take_append_of_le_length (by omega)]
  · exact .inr (drive_append _ more drive)

end Reading

section Matching

theorem trim_front (path : List Char) : trimSlashes path <+: path := by
  rw [trimSlashes, ← List.reverse_suffix, List.reverse_reverse]
  exact List.dropWhile_suffix _

theorem trim_closed (path : List Char) : ¬ ['/'] <:+ trimSlashes path := by
  intro closed
  rw [trimSlashes, ← List.reverse_prefix, List.reverse_reverse, List.reverse_singleton] at closed
  obtain ⟨more, whole⟩ := closed
  have head := List.head?_dropWhile_not (fun c => decide (c = '/')) path.reverse
  rw [← whole] at head
  simp at head

theorem stable_normal (path : List Char) (stable : Stable path) : Normal (trimSlashes (normalizePathSyntax path)) := by
  have slashed := syntax_slashed path
  have inside := trim_front (normalizePathSyntax path)
  have trimmed : '\\' ∉ trimSlashes (normalizePathSyntax path) := fun member => slashed (inside.mem member)
  refine ⟨trim_closed _, trimmed, (syntax_fixed _ trimmed).mpr ?_⟩
  have settled := (syntax_fixed _ slashed).mp stable
  rw [← Bool.not_eq_true]
  intro reduced
  rw [reduces_longer _ _ inside reduced] at settled
  cases settled

theorem match_again (path : List Char) (stable : Stable path) :
    normalizePathForMatch (normalizePathSyntax path) = normalizePathForMatch path := by
  rw [normalizePathForMatch, stable, normalizePathForMatch]

-- A prefix in normal form takes exactly the stable paths that it covers.
theorem replace_reads (path source target : List Char) (stable : Stable path) (normal : Normal source) :
    (Covers (foldCase source) (normalizePathForMatch path) → ∃ text, replacePrefix path source target = .ok (some text)) ∧
      (¬ Covers (foldCase source) (normalizePathForMatch path) → replacePrefix path source target = .ok none) := by
  rw [replacePrefix, normal.reread, match_normal source normal, match_again path stable]
  dsimp only
  constructor
  · intro covers
    rw [if_pos covers]
    rw [normalizePathForMatch] at covers
    have inside := trim_front (normalizePathSyntax path)
    have length := covers_length source _ covers
    obtain ⟨_, _, size⟩ := covers_split source _ covers
    obtain ⟨rest, whole⟩ := inside
    have front : (normalizePathSyntax path).take source.length = (trimSlashes (normalizePathSyntax path)).take source.length := by
      conv_lhs => rw [← whole]
      rw [List.take_append_of_le_length length]
    have cut : byteLength ((normalizePathSyntax path).take source.length) = byteLength source := by rw [front, size]
    have shorter : byteLength source ≤ byteLength (normalizePathSyntax path) := by
      rw [← cut]
      conv_rhs => rw [← List.take_append_drop source.length (normalizePathSyntax path)]
      simp only [byteLength, List.map_append, List.sum_append]
      omega
    have sliced := slice_from ((normalizePathSyntax path).take source.length) ((normalizePathSyntax path).drop source.length)
    rw [List.take_append_drop, cut] at sliced
    rw [Nat.min_eq_left shorter, sliced]
    exact ⟨_, rfl⟩
  · intro uncovered
    rw [if_neg uncovered]
    rfl

-- Paths that differ in case alone are read alike.
theorem same_fold_reduces (one other : List Char) (same : foldCase one = foldCase other) : reduces one = reduces other := by
  have windows : looksLikeWindowsPath one = looksLikeWindowsPath other := by rw [← fold_looks_like one, same, fold_looks_like]
  rw [fold_case_map one, fold_case_map other, windows] at same
  by_cases folded : looksLikeWindowsPath other = true
  · rw [if_pos folded] at same
    rw [← reduces_lower one, same, reduces_lower]
  · rw [if_neg folded, List.map_id, List.map_id] at same
    rw [same]

theorem trim_again (text : String) : Server.trim (String.ofList (Server.trim text)) = Server.trim text := by
  have ends : ∀ chars : List Char, (chars.reverse.dropWhile isWhitespace).reverse = chars.rdropWhile isWhitespace := fun _ => rfl
  have left : ∀ chars : List Char, ((chars.dropWhile isWhitespace).rdropWhile isWhitespace).dropWhile isWhitespace =
      (chars.dropWhile isWhitespace).rdropWhile isWhitespace := by
    intro chars
    rw [List.dropWhile_eq_self_iff]
    intro named
    have inside := List.rdropWhile_prefix isWhitespace (chars.dropWhile isWhitespace)
    rw [inside.getElem named]
    exact List.dropWhile_get_zero_not _ _ (Nat.lt_of_lt_of_le named inside.length_le)
  rw [Server.trim, Server.trim, String.toList_ofList, ends, ends, left, List.rdropWhile_idempotent]

end Matching

end SessionSync.Workspace
