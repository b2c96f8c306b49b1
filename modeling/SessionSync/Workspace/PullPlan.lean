import SessionSync.Config.Readable
import SessionSync.Lib.Roots
import SessionSync.Workspace.PathRoundTrip
import SessionSync.Workspace.ProjectRemoval

set_option autoImplicit false

namespace SessionSync.Workspace

open SessionSync.Core Checked Config

structure WorkspacePathCandidate where
  remotePath : String
  suggestedSubdirectory : String
deriving DecidableEq, Repr

structure WorkspacePullPlan where
  remoteId : Uuid
  namespaceId : Uuid
  remoteHead : Option String
  mappedPathCount : Nat
  existingPathCount : Nat
  unmappedPaths : List WorkspacePathCandidate
deriving DecidableEq, Repr

def matchKey (path : String) : String := String.ofList (normalizePathForMatch path.toList)

def sameOrChild (path parent : String) : Bool := pathIsSameOrChild path.toList parent.toList

-- BTreeMap::entry(..).or_insert: the first spelling of a path stands for the others.
def insertWorkspacePath (paths : Std.ExtTreeMap String String) (path : String) : Std.ExtTreeMap String String :=
  let path := String.ofList (Server.trim path)
  if path = "" then paths else paths.insertIfNew (matchKey path) path

def uniquePaths (remotePaths : List String) : List String := Keyed.values (remotePaths.foldl insertWorkspacePath ∅)

def byCharacters (one other : String) : Prop :=
  (normalizePathForMatch one.toList).length ≤ (normalizePathForMatch other.toList).length

instance : DecidableRel byCharacters := fun _ _ => inferInstanceAs (Decidable (_ ≤ _))

def byMatchKey (one other : String) : Prop := matchKey one ≤ matchKey other

instance : DecidableRel byMatchKey := fun _ _ => inferInstanceAs (Decidable (_ ≤ _))

def minimalRemoteRoots (paths : List String) : List String :=
  (Roots.reduce sameOrChild [] (paths.insertionSort byCharacters)).insertionSort byMatchKey

def forbidden : List Char := ['<', '>', ':', '\\', '"', '/', '|', '?', '*']

-- rsplit('/') without the empty parts.
def lastPart (path : List Char) : List Char :=
  ((path.reverse.dropWhile fun c => c = '/').takeWhile fun c => c ≠ '/').reverse

def trimMatches (trims : Char → Bool) (text : List Char) : List Char := ((text.dropWhile trims).reverse.dropWhile trims).reverse

def suggestedSubdirectory (remotePath : String) : String :=
  let part := lastPart (slashes remotePath.toList)
  let leaf := if part = [] then "project".toList else part
  let safe := leaf.map fun c => if Server.isControl c || c ∈ forbidden then '_' else c
  let safe := trimMatches (fun c => c = ' ' || c = '.') safe
  if safe = [] || safe = ['.'] || safe = ['.', '.'] then "project" else String.ofList safe

inductive PathClass where
  | mapped
  | existing
  | missing
deriving DecidableEq, Repr

-- Of the file system it is asked which paths are directories.
def classify (mapper : WorkspacePathMapper) (isDir : String → Bool) (path : String) : Except String (String × PathClass) := do
  let local_ ← mapText mapper true path
  return (path, if local_.isSome then .mapped else if isDir path then .existing else .missing)

def classifyRemotePaths (remotePaths : List String) (mapper : WorkspacePathMapper) (isDir : String → Bool) :
    Except String (Nat × Nat × List WorkspacePathCandidate) := do
  let classes ← (uniquePaths remotePaths).mapM (classify mapper isDir)
  let missing := (classes.filter fun path => path.2 = .missing).map Prod.fst
  return (classes.countP fun path => path.2 = .mapped, classes.countP fun path => path.2 = .existing,
    (minimalRemoteRoots missing).map fun root => ⟨root, suggestedSubdirectory root⟩)

def mapperOf (scope : WorkspaceScope) (file : WorkspaceMappingFile) : Except String WorkspacePathMapper :=
  WorkspacePathMapper.new ((stateOf scope file).mappings.map fun mapping => (mapping.remotePrefix, mapping.localPrefix))

def pullPlan (lib : Primitives) (serde : Serde WorkspaceMappingFile) (scope : WorkspaceScope) (remoteHead : Option String)
    (remotePaths : List String) (isDir : String → Bool) (file : Option Bytes) : Except ConfigError WorkspacePullPlan := do
  let document ← loaded (workspaceMappingStore lib serde) file
  let mapper ← (mapperOf scope document).mapError ConfigError.invalid
  let (mapped, existing, unmapped) ← (classifyRemotePaths remotePaths mapper isDir).mapError ConfigError.invalid
  return { remoteId := scope.1
           namespaceId := scope.2.1
           remoteHead := remoteHead
           mappedPathCount := mapped
           existingPathCount := existing
           unmappedPaths := unmapped }

section Nesting

theorem covers_refl (path : List Char) : Covers path path := .inl rfl

theorem covers_front (root path : List Char) (covers : Covers root path) : root <+: path := by
  rcases covers with rfl | below
  · exact List.prefix_refl _
  · exact (List.prefix_append root ['/']).trans below

theorem covers_trans (root mid path : List Char) (upper : Covers root mid) (lower : Covers mid path) : Covers root path := by
  rcases upper with rfl | above
  · exact lower
  · exact .inr (above.trans (covers_front mid path lower))

-- Of two prefixes of one path that end at a separator the shorter one covers the other.
theorem covers_nested (one other path : List Char) (first : Covers one path) (second : Covers other path)
    (shorter : one.length ≤ other.length) : Covers one other := by
  have inside := List.prefix_of_prefix_length_le (covers_front one path first) (covers_front other path second) shorter
  rcases Nat.lt_or_ge one.length other.length with less | equal
  · refine .inr (List.prefix_of_prefix_length_le ?_ (covers_front other path second) ?_)
    rotate_left
    · rw [List.length_append, List.length_singleton]
      exact less
    rcases first with rfl | below
    · exact absurd (covers_front other path second).length_le (by omega)
    · exact below
  · exact .inl (inside.eq_of_length (Nat.le_antisymm shorter equal)).symm

theorem path_nesting : Roots.Nesting sameOrChild fun path => (normalizePathForMatch path.toList).length where
  refl path := decide_eq_true (covers_refl _)
  trans path mid root lower upper := decide_eq_true (covers_trans _ _ _ (of_decide_eq_true upper) (of_decide_eq_true lower))
  larger path root below := (covers_front _ _ (of_decide_eq_true below)).length_le
  level path root below same := by
    have equal := (covers_front _ _ (of_decide_eq_true below)).eq_of_length same.symm
    exact decide_eq_true (.inl equal)
  forest path one other first second := by
    rcases Nat.le_total (normalizePathForMatch one.toList).length (normalizePathForMatch other.toList).length with shorter | longer
    · exact .inr (decide_eq_true (covers_nested _ _ _ (of_decide_eq_true first) (of_decide_eq_true second) shorter))
    · exact .inl (decide_eq_true (covers_nested _ _ _ (of_decide_eq_true second) (of_decide_eq_true first) longer))

instance : Std.Total byCharacters := ⟨fun _ _ => Nat.le_total _ _⟩

instance : IsTrans String byCharacters := ⟨fun _ _ _ => Nat.le_trans⟩

theorem minimal_apart (paths : List String) : (minimalRemoteRoots paths).Pairwise (Roots.Apart sameOrChild) := by
  rw [minimalRemoteRoots, (List.perm_insertionSort _ _).pairwise_iff fun apart => (Roots.apartSymmetric sameOrChild).symm _ _ apart]
  exact Roots.reduce_apart path_nesting [] _ (List.pairwise_insertionSort byCharacters paths) nofun .nil

theorem minimal_covers (paths : List String) (path : String) (member : path ∈ paths) :
    ∃ root ∈ minimalRemoteRoots paths, sameOrChild path root = true := by
  obtain ⟨root, known, below⟩ := Roots.reduce_covers path_nesting [] (paths.insertionSort byCharacters) path
    ((List.mem_insertionSort _).mpr member)
  exact ⟨root, (List.mem_insertionSort _).mpr known, below⟩

theorem minimal_among (paths : List String) (root : String) (member : root ∈ minimalRemoteRoots paths) : root ∈ paths := by
  rcases Roots.reduce_among sameOrChild [] _ root ((List.mem_insertionSort _).mp member) with impossible | known
  · cases impossible
  · exact (List.mem_insertionSort _).mp known

end Nesting

section Spellings

def trimmed (path : String) : String := String.ofList (Server.trim path)

-- The path that stands for all those of one match form.
def firstSpelling (remotePaths : List String) (key : String) : Option String :=
  (remotePaths.map trimmed).find? fun path => path ≠ "" && matchKey path = key

theorem insert_lookup (paths : Std.ExtTreeMap String String) (path key : String) :
    (insertWorkspacePath paths path)[key]? = paths[key]?.or (firstSpelling [path] key) := by
  change (if trimmed path = "" then paths else paths.insertIfNew (matchKey (trimmed path)) (trimmed path))[key]? = _
  by_cases blank : trimmed path = ""
  · simp [firstSpelling, blank]
  · rw [if_neg blank, Std.ExtTreeMap.getElem?_insertIfNew]
    by_cases same : matchKey (trimmed path) = key
    · subst same
      cases held : paths[matchKey (trimmed path)]? with
      | none =>
          have absent : matchKey (trimmed path) ∉ paths := fun known => by
            simpa [held] using Std.ExtTreeMap.mem_iff_isSome_getElem?.mp known
          simp [firstSpelling, blank, absent]
      | some found =>
          have known : matchKey (trimmed path) ∈ paths := Std.ExtTreeMap.mem_iff_isSome_getElem?.mpr (by rw [held]; rfl)
          simp [known]
    · simp [firstSpelling, same, blank]

theorem spellings_lookup (remotePaths : List String) (paths : Std.ExtTreeMap String String) (key : String) :
    (remotePaths.foldl insertWorkspacePath paths)[key]? = paths[key]?.or (firstSpelling remotePaths key) := by
  induction remotePaths generalizing paths with
  | nil => simp [firstSpelling]
  | cons path rest ih =>
      rw [List.foldl_cons, ih, insert_lookup, Option.or_assoc]
      congr 1
      rw [firstSpelling, firstSpelling, firstSpelling, List.map_cons, List.map_nil, List.map_cons, List.find?_cons, List.find?_cons]
      cases (trimmed path ≠ "" && matchKey (trimmed path) = key : Bool) <;> rfl

theorem unique_iff (remotePaths : List String) (path : String) :
    path ∈ uniquePaths remotePaths ↔ firstSpelling remotePaths (matchKey path) = some path := by
  rw [uniquePaths, Keyed.values, List.mem_map]
  constructor
  · intro listed
    obtain ⟨⟨key, value⟩, member, rfl⟩ := listed
    rw [Std.ExtTreeMap.mem_toList_iff_getElem?_eq_some, spellings_lookup] at member
    have found : firstSpelling remotePaths key = some value := by simpa using member
    have matched := List.find?_some found
    rw [Bool.and_eq_true, decide_eq_true_iff, decide_eq_true_iff] at matched
    rwa [matched.2]
  · intro found
    refine ⟨(matchKey path, path), ?_, rfl⟩
    rw [Std.ExtTreeMap.mem_toList_iff_getElem?_eq_some, spellings_lookup, found]
    simp

end Spellings

section Covered

variable (remotePaths : List String) (mapper : WorkspacePathMapper) (isDir : String → Bool)

def Unplaced (path : String) : Prop := mapText mapper true path = .ok none ∧ isDir path = false

-- The roots are apart from each other, and a path that is not blank is in or below one
-- of them if the spelling that stands for it is neither mapped nor a directory here.
structure CoversUnplaced (unmapped : List WorkspacePathCandidate) : Prop where
  apart : (unmapped.map WorkspacePathCandidate.remotePath).Pairwise (Roots.Apart sameOrChild)
  among : ∀ root ∈ unmapped.map WorkspacePathCandidate.remotePath, root ∈ uniquePaths remotePaths ∧ Unplaced mapper isDir root
  covered : ∀ path ∈ remotePaths, ∀ first, firstSpelling remotePaths (matchKey (trimmed path)) = some first →
    Unplaced mapper isDir first →
    ∃ root ∈ unmapped.map WorkspacePathCandidate.remotePath, sameOrChild (trimmed path) root = true ∧
      ∀ other ∈ unmapped.map WorkspacePathCandidate.remotePath, sameOrChild (trimmed path) other = true → other = root

theorem same_key_child (one other : String) (same : matchKey one = matchKey other) (root : String) :
    sameOrChild one root = sameOrChild other root := by
  unfold matchKey at same
  have keys := String.ofList_inj.mp same
  unfold sameOrChild pathIsSameOrChild
  rw [keys]

theorem classify_ok (path : String) (class_ : String × PathClass) (ran : classify mapper isDir path = .ok class_) :
    class_.1 = path ∧ (class_.2 = .missing ↔ Unplaced mapper isDir path) := by
  simp only [classify, bind_ok, pure_ok] at ran
  obtain ⟨local_, mapped, rfl⟩ := ran
  refine ⟨rfl, ?_⟩
  rw [Unplaced, mapped]
  cases local_ with
  | none => cases isDir path <;> simp
  | some local_ => simp

theorem missing_iff (classes : List (String × PathClass)) (ran : (uniquePaths remotePaths).mapM (classify mapper isDir) = .ok classes)
    (path : String) : path ∈ (classes.filter fun path => path.2 = .missing).map Prod.fst ↔
      path ∈ uniquePaths remotePaths ∧ Unplaced mapper isDir path := by
  have paths := map_each_image _ id Prod.fst (uniquePaths remotePaths)
    classes (fun path _ class_ one => (classify_ok mapper isDir path class_ one).1) ran
  rw [List.map_id] at paths
  constructor
  · intro member
    obtain ⟨class_, listed, rfl⟩ := List.mem_map.mp member
    obtain ⟨inside, missing⟩ := List.mem_filter.mp listed
    obtain ⟨item, among, one⟩ := map_each_mem _ _ classes ran class_ inside
    obtain ⟨rfl, iff_⟩ := classify_ok mapper isDir item class_ one
    exact ⟨among, iff_.mp (of_decide_eq_true missing)⟩
  · intro unplaced
    obtain ⟨listed, unplaced⟩ := unplaced
    rw [← paths] at listed
    obtain ⟨class_, inside, rfl⟩ := List.mem_map.mp listed
    obtain ⟨item, among, one⟩ := map_each_mem _ _ classes ran class_ inside
    obtain ⟨rfl, iff_⟩ := classify_ok mapper isDir item class_ one
    exact List.mem_map.mpr ⟨class_, List.mem_filter.mpr ⟨inside, decide_eq_true (iff_.mpr unplaced)⟩, rfl⟩

theorem classified (result : Nat × Nat × List WorkspacePathCandidate)
    (ran : classifyRemotePaths remotePaths mapper isDir = .ok result) :
    ∃ classes, (uniquePaths remotePaths).mapM (classify mapper isDir) = .ok classes ∧
      result.2.2.map WorkspacePathCandidate.remotePath =
        minimalRemoteRoots ((classes.filter fun path => path.2 = .missing).map Prod.fst) := by
  simp only [classifyRemotePaths, bind_ok, pure_ok] at ran
  obtain ⟨classes, each, rfl⟩ := ran
  refine ⟨classes, each, ?_⟩
  rw [List.map_map]
  exact List.map_id _

theorem first_listed (path first : String) (spelled : firstSpelling remotePaths (matchKey path) = some first) :
    matchKey path = matchKey first ∧ first ∈ uniquePaths remotePaths := by
  have matched := List.find?_some spelled
  rw [Bool.and_eq_true, decide_eq_true_iff, decide_eq_true_iff] at matched
  refine ⟨matched.2.symm, (unique_iff remotePaths first).mpr ?_⟩
  rw [matched.2, spelled]

theorem plan_covers (result : Nat × Nat × List WorkspacePathCandidate)
    (ran : classifyRemotePaths remotePaths mapper isDir = .ok result) :
    CoversUnplaced remotePaths mapper isDir result.2.2 := by
  obtain ⟨classes, each, roots⟩ := classified remotePaths mapper isDir result ran
  have missing := missing_iff remotePaths mapper isDir classes each
  have apart := minimal_apart ((classes.filter fun path => path.2 = .missing).map Prod.fst)
  refine ⟨roots ▸ apart, ?_, ?_⟩
  · intro root member
    rw [roots] at member
    exact (missing root).mp (minimal_among _ root member)
  · intro path _ first spelled unplaced
    obtain ⟨keys, listed⟩ := first_listed remotePaths (trimmed path) first spelled
    obtain ⟨root, known, below⟩ := minimal_covers _ first ((missing first).mpr ⟨listed, unplaced⟩)
    have same := same_key_child (trimmed path) first keys
    rw [roots]
    refine ⟨root, known, (same root).trans below, fun other among reaches => ?_⟩
    exact Roots.root_unique path_nesting _ apart first other root among known ((same other).symm.trans reaches) below

end Covered

end SessionSync.Workspace
