import SessionSync.Checkout.Projects
import SessionSync.Lib.Keyed
import Mathlib.Data.String.Basic

set_option autoImplicit false

namespace SessionSync.Checkout

open SessionSync.Core Checked Rollout

variable (platform : Platform)

theorem replace_twice (old new c : Char) (apart : old ≠ new) :
    replaceChar old new (replaceChar old new c) = replaceChar old new c := by
  unfold replaceChar
  by_cases same : c = old
  · rw [if_pos same, if_neg apart.symm]
  · rw [if_neg same, if_neg same]

theorem native_twice (path : String) :
    nativeWorkspacePath platform (nativeWorkspacePath platform path) = nativeWorkspacePath platform path := by
  unfold nativeWorkspacePath
  rw [String.toList_ofList, List.map_map]
  congr 1
  refine List.map_congr_left fun c _ => ?_
  cases platform.windows
  · exact replace_twice _ _ c (by decide)
  · exact replace_twice _ _ c (by decide)

theorem native_identity (path : String) : rootIdentity platform (nativeWorkspacePath platform path) = rootIdentity platform path := by
  rw [rootIdentity, native_twice, rootIdentity]

def sharing (paths : List String) (identity : String) : List String := paths.filter fun path => rootIdentity platform path = identity

theorem sharing_append (paths : List String) (path identity : String) : sharing platform (paths ++ [path]) identity =
    if rootIdentity platform path = identity then sharing platform paths identity ++ [path] else sharing platform paths identity := by
  rw [sharing, List.filter_append, sharing]
  by_cases same : rootIdentity platform path = identity
  · simp [same]
  · simp [same]

theorem concrete_lookup (paths : List String) (identity : String) :
    (paths.foldl (countPath platform) ∅)[identity]? =
      if identity = "" then none
      else (sharing platform paths identity).head?.map fun path =>
        (nativeWorkspacePath platform path, (sharing platform paths identity).length) := by
  induction paths using List.reverseRecOn with
  | nil => simp [sharing]
  | append_singleton paths path ih =>
      rw [List.foldl_append, List.foldl_cons, List.foldl_nil, countPath, sharing_append]
      by_cases blank : rootIdentity platform path = ""
      · rw [if_pos blank, ih]
        by_cases same : identity = ""
        · rw [if_pos same, if_pos same]
        · rw [if_neg same, if_neg same, if_neg (fun equal => same (equal.symm.trans blank))]
      · rw [if_neg blank]
        by_cases same : rootIdentity platform path = identity
        · subst same
          rw [if_neg blank] at ih ⊢
          rw [ih, if_pos rfl]
          cases shared : sharing platform paths (rootIdentity platform path) with
          | nil => simp
          | cons first rest => simp
        · rw [if_neg same, ← ih]
          cases (paths.foldl (countPath platform) ∅)[rootIdentity platform path]? with
          | none => simp [Keyed.lookup_insert, Ne.symm same]
          | some entry => simp [Keyed.lookup_insert, Ne.symm same]

-- The roots of a checkout: those it was given, and the paths of threads that stand for themselves.
def IsRoot (threads : List ThreadBundle) (workspaceProjectRoots : List String) (identity : String) : Prop :=
  identity ≠ "" ∧
    ((∃ root ∈ workspaceProjectRoots, rootIdentity platform root = identity) ∨
      (∃ path ∈ threads.filterMap checkoutThreadWorkspacePath, rootIdentity platform path = identity) ∧
        Promoted platform workspaceProjectRoots identity
          (sharing platform (threads.filterMap checkoutThreadWorkspacePath) identity).length)

section Distinct

variable (lib : Primitives) (threads : List ThreadBundle) (workspaceProjectRoots : List String)

theorem candidate_identities (identity : String) (filled : identity ≠ "") :
    (∃ root ∈ rootCandidates platform threads workspaceProjectRoots, rootIdentity platform root = identity) ↔
      IsRoot platform threads workspaceProjectRoots identity := by
  have concrete : (∃ root ∈ ((concretePaths platform threads).toList.filter fun path =>
      Promoted platform workspaceProjectRoots path.1 path.2.2).map (fun path => path.2.1), rootIdentity platform root = identity) ↔
      (∃ path ∈ threads.filterMap checkoutThreadWorkspacePath, rootIdentity platform path = identity) ∧
        Promoted platform workspaceProjectRoots identity
          (sharing platform (threads.filterMap checkoutThreadWorkspacePath) identity).length := by
    have found := concrete_lookup platform (threads.filterMap checkoutThreadWorkspacePath)
    constructor
    · rintro ⟨root, member, same⟩
      obtain ⟨⟨own, display, count⟩, inside, rfl⟩ := List.mem_map.mp member
      obtain ⟨listed, promoted⟩ := List.mem_filter.mp inside
      have entry := Std.ExtTreeMap.mem_toList_iff_getElem?_eq_some.mp listed
      rw [concretePaths, found] at entry
      by_cases blank : own = ""
      · rw [if_pos blank] at entry
        cases entry
      · rw [if_neg blank, Option.map_eq_some_iff] at entry
        obtain ⟨path, first, shown⟩ := entry
        obtain ⟨rfl, rfl⟩ := Prod.mk.inj shown
        have shares := List.mem_of_mem_head? (Option.mem_def.mpr first)
        obtain ⟨among, owned⟩ := List.mem_filter.mp shares
        have owned : rootIdentity platform path = own := by simpa using owned
        rw [native_identity, owned] at same
        subst same
        exact ⟨⟨path, among, owned⟩, by simpa using promoted⟩
    · rintro ⟨⟨path, among, rfl⟩, promoted⟩
      have shares : path ∈ sharing platform (threads.filterMap checkoutThreadWorkspacePath) (rootIdentity platform path) :=
        List.mem_filter.mpr ⟨among, by simp⟩
      obtain ⟨first, rest, shape⟩ := List.exists_cons_of_ne_nil (List.ne_nil_of_mem shares)
      have entry := found (rootIdentity platform path)
      rw [if_neg filled, shape, List.head?_cons, Option.map_some, ← shape] at entry
      have owned : rootIdentity platform first = rootIdentity platform path := by
        have inside : first ∈ sharing platform (threads.filterMap checkoutThreadWorkspacePath) (rootIdentity platform path) :=
          shape ▸ List.mem_cons_self
        simpa using (List.mem_filter.mp inside).2
      refine ⟨nativeWorkspacePath platform first, List.mem_map.mpr ⟨_, List.mem_filter.mpr ⟨
        Std.ExtTreeMap.mem_toList_iff_getElem?_eq_some.mpr entry, by simpa using promoted⟩, rfl⟩, ?_⟩
      rw [native_identity, owned]
  rw [rootCandidates, IsRoot, and_iff_right filled, ← concrete]
  simp only [List.mem_append, or_and_right, exists_or]

-- What the display, the identity and the project of a root have to do with each other.
structure Described (root : WorkspaceProjectRoot) : Prop where
  identity : workspacePathIdentity platform root.display = root.identity
  filled : root.identity ≠ ""
  project : root.projectId = projectIdOf lib root.display

theorem distinct_roots_described (root : WorkspaceProjectRoot)
    (member : root ∈ distinctRoots platform lib threads workspaceProjectRoots) :
    Described platform lib root ∧ ∃ candidate ∈ rootCandidates platform threads workspaceProjectRoots,
      rootIdentity platform candidate = root.identity := by
  have made := (List.destutter_sublist _ _).mem member
  rw [List.mem_insertionSort, List.mem_filterMap] at made
  obtain ⟨candidate, among, makes⟩ := made
  unfold rootOf at makes
  by_cases blank : rootIdentity platform candidate = ""
  · rw [if_pos blank] at makes
    cases makes
  · rw [if_neg blank] at makes
    cases makes
    exact ⟨⟨rfl, blank, rfl⟩, candidate, among, rfl⟩

theorem distinct_root_identities (identity : String) :
    (∃ root ∈ distinctRoots platform lib threads workspaceProjectRoots, root.identity = identity) ↔
      IsRoot platform threads workspaceProjectRoots identity := by
  constructor
  · rintro ⟨root, member, rfl⟩
    obtain ⟨described, candidate, among, same⟩ := distinct_roots_described platform lib threads workspaceProjectRoots root member
    exact (candidate_identities platform threads workspaceProjectRoots _ described.filled).mp ⟨candidate, among, same⟩
  · intro isRoot
    obtain ⟨candidate, among, same⟩ := (candidate_identities platform threads workspaceProjectRoots identity isRoot.1).mpr isRoot
    rw [distinctRoots, Keyed.destutter_images]
    refine ⟨⟨nativeWorkspacePath platform candidate, rootIdentity platform candidate,
      projectIdOf lib (nativeWorkspacePath platform candidate)⟩,
      ?_, same⟩
    rw [List.mem_insertionSort, List.mem_filterMap]
    exact ⟨candidate, among, by rw [rootOf, if_neg (same ▸ isRoot.1)]⟩

theorem distinct_roots_apart : (distinctRoots platform lib threads workspaceProjectRoots).Pairwise fun left right =>
    left.identity ≠ right.identity := by
  have total : Std.Total fun left right : WorkspaceProjectRoot => left.identity ≤ right.identity := ⟨fun _ _ => le_total _ _⟩
  have trans : IsTrans WorkspaceProjectRoot fun left right => left.identity ≤ right.identity := ⟨fun _ _ _ => le_trans⟩
  exact (Keyed.destutter_strict WorkspaceProjectRoot.identity _ (List.pairwise_insertionSort _ _)).imp fun less => less.ne

end Distinct

section Longest

-- The longest of the roots that cover a path.
structure Longest (roots : List WorkspaceProjectRoot) (identity : String) (root : WorkspaceProjectRoot) : Prop where
  member : root ∈ roots
  covers : WorkspacePathMatches identity root.identity
  longest : ∀ other ∈ roots, WorkspacePathMatches identity other.identity → other.identity.utf8ByteSize ≤ root.identity.utf8ByteSize

def laterOf (best next : WorkspaceProjectRoot) : WorkspaceProjectRoot :=
  if best.identity.utf8ByteSize ≤ next.identity.utf8ByteSize then next else best

theorem later_cases (best next : WorkspaceProjectRoot) :
    (laterOf best next = best ∨ laterOf best next = next) ∧ best.identity.utf8ByteSize ≤ (laterOf best next).identity.utf8ByteSize ∧
      next.identity.utf8ByteSize ≤ (laterOf best next).identity.utf8ByteSize := by
  unfold laterOf
  by_cases longer : best.identity.utf8ByteSize ≤ next.identity.utf8ByteSize
  · rw [if_pos longer]
    exact ⟨.inr rfl, longer, Nat.le_refl _⟩
  · rw [if_neg longer]
    exact ⟨.inl rfl, Nat.le_refl _, Nat.le_of_not_le longer⟩

theorem later_fold (roots : List WorkspaceProjectRoot) (best : WorkspaceProjectRoot) :
    ∃ root, roots.foldl laterLonger (some best) = some root ∧ root ∈ best :: roots ∧
      ∀ other ∈ best :: roots, other.identity.utf8ByteSize ≤ root.identity.utf8ByteSize := by
  induction roots generalizing best with
  | nil => exact ⟨best, rfl, List.mem_singleton_self _, fun other member => Nat.le_of_eq (by rw [List.mem_singleton.mp member])⟩
  | cons next rest ih =>
      have step : laterLonger (some best) next = some (laterOf best next) := by
        rw [laterLonger, laterOf]
        exact (apply_ite some _ _ _).symm
      obtain ⟨choice, bestLess, nextLess⟩ := later_cases best next
      obtain ⟨root, folds, member, longest⟩ := ih (laterOf best next)
      refine ⟨root, by rw [List.foldl_cons, step, folds], ?_, fun other inside => ?_⟩
      · rcases List.mem_cons.mp member with same | later
        · rcases choice with first | second
          · exact List.mem_cons.mpr (.inl (same.trans first))
          · exact List.mem_cons_of_mem _ (List.mem_cons.mpr (.inl (same.trans second)))
        · exact List.mem_cons_of_mem _ (List.mem_cons_of_mem _ later)
      · have least := longest _ List.mem_cons_self
        rcases List.mem_cons.mp inside with rfl | inside
        · exact bestLess.trans least
        rcases List.mem_cons.mp inside with rfl | later
        · exact nextLess.trans least
        · exact longest other (List.mem_cons_of_mem _ later)

theorem longest_some (roots : List WorkspaceProjectRoot) (identity : String) (root : WorkspaceProjectRoot)
    (chosen : longestRoot roots identity = some root) : Longest roots identity root := by
  have kept : ∀ other, other ∈ roots.filter (fun root => WorkspacePathMatches identity root.identity) ↔
      other ∈ roots ∧ WorkspacePathMatches identity other.identity := fun other => by simp
  unfold longestRoot at chosen
  cases shape : roots.filter fun root => WorkspacePathMatches identity root.identity with
  | nil =>
      rw [shape] at chosen
      cases chosen
  | cons first rest =>
      rw [shape, List.foldl_cons, laterLonger] at chosen
      obtain ⟨other, folds, member, longest⟩ := later_fold rest first
      rw [folds, Option.some.injEq] at chosen
      subst chosen
      rw [← shape] at member longest
      exact ⟨((kept other).mp member).1, ((kept other).mp member).2, fun next inside covers =>
        longest next ((kept next).mpr ⟨inside, covers⟩)⟩

theorem longest_exists (roots : List WorkspaceProjectRoot) (identity : String)
    (covered : ∃ root ∈ roots, WorkspacePathMatches identity root.identity) : ∃ root, longestRoot roots identity = some root := by
  obtain ⟨root, member, covers⟩ := covered
  have kept : root ∈ roots.filter fun root => WorkspacePathMatches identity root.identity :=
    List.mem_filter.mpr ⟨member, by simpa using covers⟩
  unfold longestRoot
  obtain ⟨first, rest, shape⟩ := List.exists_cons_of_ne_nil (List.ne_nil_of_mem kept)
  rw [shape, List.foldl_cons, laterLonger]
  obtain ⟨chosen, folds, _⟩ := later_fold rest first
  exact ⟨chosen, folds⟩

end Longest

section Known

variable (lib : Primitives) (state : Fields) (threads : List ThreadBundle) (workspaceProjectRoots : List String)

theorem known_same (projects : Fields) (root : WorkspaceProjectRoot) :
    (withKnownProject platform projects root).identity = root.identity ∧
    (withKnownProject platform projects root).display = root.display := by
  unfold withKnownProject
  cases projects.find? fun project => hasRoot platform root.identity project.2 with
  | none => exact ⟨rfl, rfl⟩
  | some project => exact ⟨rfl, rfl⟩

theorem project_root_identities (identity : String) :
    (∃ root ∈ projectRoots platform lib state threads workspaceProjectRoots, root.identity = identity) ↔
      IsRoot platform threads workspaceProjectRoots identity := by
  rw [← distinct_root_identities platform lib threads workspaceProjectRoots identity, projectRoots]
  simp only [List.mem_map, exists_exists_and_eq_and, known_same]

-- A root covers the path of the thread.
def Covered (thread : ThreadBundle) : Prop :=
  ∃ cwd, checkoutThreadWorkspacePath thread = some cwd ∧
    ∃ identity, IsRoot platform threads workspaceProjectRoots identity ∧ WorkspacePathMatches (rootIdentity platform cwd) identity

theorem assignment_some (thread : ThreadBundle) (assignment : Assignment)
    (assigned : assignmentOf platform (projectRoots platform lib state threads workspaceProjectRoots) thread = some assignment) :
    ∃ cwd root, checkoutThreadWorkspacePath thread = some cwd ∧
      Longest (projectRoots platform lib state threads workspaceProjectRoots) (rootIdentity platform cwd) root ∧
      assignment = ⟨thread.threadId, nativeWorkspacePath platform cwd, root.projectId, root.identity⟩ := by
  simp only [assignmentOf, Option.bind_eq_some_iff, Option.map_eq_some_iff] at assigned
  obtain ⟨cwd, path, root, chosen, rfl⟩ := assigned
  exact ⟨cwd, root, path, longest_some _ _ _ chosen, rfl⟩

theorem assignment_covered (thread : ThreadBundle) :
    (∃ assignment, assignmentOf platform (projectRoots platform lib state threads workspaceProjectRoots) thread = some assignment) ↔
      Covered platform threads workspaceProjectRoots thread := by
  constructor
  · rintro ⟨assignment, assigned⟩
    obtain ⟨cwd, root, path, longest, _⟩ :=
      assignment_some platform lib state threads workspaceProjectRoots thread assignment assigned
    exact ⟨cwd, path, root.identity,
      (project_root_identities platform lib state threads workspaceProjectRoots _).mp ⟨root, longest.member, rfl⟩,
      longest.covers⟩
  · rintro ⟨cwd, path, identity, isRoot, covers⟩
    obtain ⟨root, member, rfl⟩ := (project_root_identities platform lib state threads workspaceProjectRoots identity).mpr isRoot
    obtain ⟨chosen, picks⟩ := longest_exists _ _ ⟨root, member, covers⟩
    rw [assignmentOf, path, Option.bind_some, picks]
    exact ⟨_, rfl⟩

end Known

end SessionSync.Checkout
