import SessionSync.Core.Models
import SessionSync.Local.Access

set_option autoImplicit false

namespace SessionSync.Checkout.Staging

open SessionSync.Core Checked Local

-- How a system reads a path: its separators, which names are one name to it, and
-- which texts can name nothing but a directory.
structure PathStyle where
  windows : Bool
  sameName : String → String
  directoryText : List Char → Bool

section Paths

variable (style : PathStyle)

def pathSeparator (c : Char) : Bool := c = '/' || (style.windows && c = '\\')

def nativeSeparators (path : List Char) : List Char := if style.windows then path.map fun c => if c = '/' then '\\' else c else path

def hasDrive : List Char → Bool
  | letter :: ':' :: _ => letter.isAlpha
  | _ => false

-- A drive, a share or the root directory: where a path does not start from here.
inductive PathComponent where
  | anchor
  | curDir
  | parentDir
  | normal (name : String)
deriving DecidableEq, Repr

def pieceComponent (piece : List Char) : Option PathComponent :=
  if piece = [] ∨ piece = ['.'] then none
  else if piece = ['.', '.'] then some .parentDir
  else some (.normal (String.ofList piece))

-- Every prefix that Windows knows besides a drive begins with a separator.
def components (path : List Char) : List PathComponent :=
  let drive := style.windows && hasDrive path
  let body := if drive then path.drop 2 else path
  let rooted := body.head?.any (pathSeparator style)
  let pieces := body.splitOnP (pathSeparator style)
  (if drive || rooted then [.anchor] else []) ++ (if !rooted && pieces.head? = some ['.'] then [.curDir] else []) ++
    pieces.filterMap pieceComponent

-- An absolute path has an anchor.
def safeRolloutPath (thread : ThreadBundle) : Except String (List Char) := do
  let logicalPath ← found thread.rollout.logicalPath ("thread " ++ thread.threadId ++ " has no rollout logical path")
  let path := nativeSeparators style logicalPath.toList
  ensure (path ≠ [] ∧ .anchor ∉ components style path ∧ .parentDir ∉ components style path)
    ("unsafe rollout path in snapshot: " ++ logicalPath)
  let root := (components style path).head?
  ensure (root = some (.normal "sessions") ∨ root = some (.normal "archived_sessions"))
    ("thread " ++ thread.threadId ++ " rollout path must be below sessions or archived_sessions")
  return path

def PathComponent.name : PathComponent → Option String
  | .normal name => some name
  | _ => none

def pathNames (path : List Char) : List String := (components style path).filterMap PathComponent.name

-- Where the components lead from here, and nothing where they lead away.
def resolveFrom (location : List String) : List PathComponent → Option (List String)
  | [] => some location
  | .anchor :: _ => none
  | .curDir :: rest => resolveFrom location rest
  | .parentDir :: rest => if location = [] then none else resolveFrom location.dropLast rest
  | .normal name :: rest => resolveFrom (location ++ [style.sameName name]) rest

def resolve (path : List Char) : Option (List String) := resolveFrom style [] (components style path)

theorem resolve_names (parts : List PathComponent) (location : List String) (anchored : .anchor ∉ parts)
    (parent : .parentDir ∉ parts) :
    resolveFrom style location parts = some (location ++ (parts.filterMap PathComponent.name).map style.sameName) := by
  induction parts generalizing location with
  | nil => simp [resolveFrom]
  | cons part parts ih =>
      simp only [List.mem_cons, not_or] at anchored parent
      have later := fun location => ih location anchored.2 parent.2
      cases part with
      | anchor => exact absurd rfl anchored.1
      | parentDir => exact absurd rfl parent.1
      | curDir => simp [resolveFrom, later, List.filterMap_cons, PathComponent.name]
      | normal name => simp [resolveFrom, later, PathComponent.name]

theorem names_head (path : List Char) (name : String) (found : (components style path).head? = some (.normal name)) :
    ∃ rest, pathNames style path = name :: rest := by
  obtain ⟨rest, parts⟩ := List.head?_eq_some_iff.mp found
  exact ⟨rest.filterMap PathComponent.name, by rw [pathNames, parts]; rfl⟩

-- What a path that is let through looks like.
theorem safe_path_ok (thread : ThreadBundle) (path : List Char) (safe : safeRolloutPath style thread = .ok path) :
    .anchor ∉ components style path ∧ .parentDir ∉ components style path ∧
      ∃ root rest, (root = "sessions" ∨ root = "archived_sessions") ∧ pathNames style path = root :: rest := by
  simp only [safeRolloutPath, bind_ok, ensure_ok, pure_ok, exists_const] at safe
  obtain ⟨_, _, ⟨_, anchored, parent⟩, root, rfl⟩ := safe
  refine ⟨anchored, parent, ?_⟩
  rcases root with sessions | archived
  · obtain ⟨rest, names⟩ := names_head style _ _ sessions
    exact ⟨_, rest, .inl rfl, names⟩
  · obtain ⟨rest, names⟩ := names_head style _ _ archived
    exact ⟨_, rest, .inr rfl, names⟩

-- What is before the last dot, unless nothing is.
def fileStem (name : String) : String :=
  let stem := ((name.toList.reverse.dropWhile fun c => c ≠ '.').drop 1).reverse
  if stem = [] then name else String.ofList stem

def withExtension (names : List String) (extension : String) : List String :=
  names.dropLast ++ (names.getLast?.map fun name => fileStem name ++ "." ++ extension).toList

end Paths

-- A place below the staging directory, by the names that lead to it.
abbrev Location := List String

inductive Node where
  | directory
  | file (bytes : Bytes)
deriving DecidableEq

structure Tree where
  nodes : Location → Option Node

namespace Tree

def set (tree : Tree) (location : Location) (node : Option Node) : Tree :=
  ⟨fun other => if other = location then node else tree.nodes other⟩

def hasDirectory (tree : Tree) (location : Location) : Prop := location = [] ∨ tree.nodes location = some .directory

instance (tree : Tree) (location : Location) : Decidable (tree.hasDirectory location) := inferInstanceAs (Decidable (_ ∨ _))

def createDir (location : Location) (tree : Tree) : Except String Tree :=
  match tree.nodes location with
  | some .directory => .ok tree
  | some (.file _) => .error "File exists"
  | none => do
      ensure (tree.hasDirectory location.dropLast) "No such file or directory"
      return tree.set location (some .directory)

-- `directoryOnly` when the text of the path says so.
def present (location : Location) (directoryOnly : Bool) (tree : Tree) : Bool :=
  if directoryOnly then tree.nodes location = some .directory else (tree.nodes location).isSome

def createNew (location : Location) (directoryOnly : Bool) (tree : Tree) : Except String Tree := do
  ensure (tree.nodes location = none) "File exists"
  ensure (tree.hasDirectory location.dropLast ∧ directoryOnly = false) "No such file or directory"
  return tree.set location (some (.file []))

def readFile (location : Location) (tree : Tree) : Except String Bytes :=
  match tree.nodes location with
  | some (.file bytes) => .ok bytes
  | some .directory => .error "Is a directory"
  | none => .error "No such file or directory"

def writeAll (location : Location) (bytes : Bytes) (tree : Tree) : Except String Tree := do
  let before ← tree.readFile location
  return tree.set location (some (.file (before ++ bytes)))

def removeFile (location : Location) (tree : Tree) : Except String Tree := do
  let _ ← tree.readFile location
  return tree.set location none

def rename (source destination : Location) (directoryOnly : Bool) (tree : Tree) : Except String Tree := do
  let bytes ← tree.readFile source
  ensure (tree.nodes destination ≠ some .directory ∧ tree.hasDirectory destination.dropLast ∧ directoryOnly = false) "Not a directory"
  return (tree.set source none).set destination (some (.file bytes))

end Tree

-- Below one of the two staged directories, and not one of them.
def Inside (style : PathStyle) (location : Location) : Prop :=
  ∃ root rest, (root = "sessions" ∨ root = "archived_sessions") ∧ rest ≠ [] ∧ location = style.sameName root :: rest

end SessionSync.Checkout.Staging
