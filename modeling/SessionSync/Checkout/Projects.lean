import SessionSync.Lib.Checked
import SessionSync.Rollout.SessionMeta
import Mathlib.Data.List.Destutter

set_option autoImplicit false

namespace SessionSync.Checkout

open SessionSync.Core Checked Rollout

-- What depends on the system the program is built for.
structure Platform where
  windows : Bool
  toLowercase : String → String
  fileName : String → Option String

variable (platform : Platform)

def replaceChar (old new c : Char) : Char := if c = old then new else c

def nativeWorkspacePath (path : String) : String :=
  String.ofList (path.toList.map (if platform.windows then replaceChar '/' '\\' else replaceChar '\\' '/'))

def verbatimPrefix : List Char := "//?/".toList

def workspacePathIdentity (path : String) : String :=
  let normalized := path.toList.map (replaceChar '\\' '/')
  let normalized := if verbatimPrefix <+: normalized then normalized.drop verbatimPrefix.length else normalized
  let normalized := String.ofList (normalized.reverse.dropWhile fun c => c = '/').reverse
  if platform.windows then platform.toLowercase normalized else normalized

def WorkspacePathMatches (path pathPrefix : String) : Prop := path = pathPrefix ∨ (pathPrefix.toList ++ ['/']) <+: path.toList

instance matchesDecidable (path pathPrefix : String) : Decidable (WorkspacePathMatches path pathPrefix) :=
  inferInstanceAs (Decidable (_ ∨ _))

def checkoutThreadWorkspacePath (thread : ThreadBundle) : Option String :=
  thread.workspace.sourcePath.or
    (((thread.relatedRecords.tables["threads"]?.bind List.head?).bind fun row => get row "cwd").bind Value.asStr)

-- The identity of a path as a thread or a mapping names it.
def rootIdentity (path : String) : String := workspacePathIdentity platform (nativeWorkspacePath platform path)

structure WorkspaceProjectRoot where
  display : String
  identity : String
  projectId : String
deriving DecidableEq, Repr

section Roots

-- How many threads use a path, under the way the first of them writes it.
def countPath (paths : Std.ExtTreeMap String (String × Nat)) (path : String) : Std.ExtTreeMap String (String × Nat) :=
  if rootIdentity platform path = "" then paths
  else
    match paths[rootIdentity platform path]? with
    | some (display, count) => paths.insert (rootIdentity platform path) (display, count + 1)
    | none => paths.insert (rootIdentity platform path) (nativeWorkspacePath platform path, 1)

def concretePaths (threads : List ThreadBundle) : Std.ExtTreeMap String (String × Nat) :=
  (threads.filterMap checkoutThreadWorkspacePath).foldl (countPath platform) ∅

def mappingIdentities (workspaceProjectRoots : List String) : List String :=
  (workspaceProjectRoots.map (rootIdentity platform)).filter fun identity => identity ≠ ""

-- A path that several threads use is a root of its own, and so is one below no mapping.
def Promoted (workspaceProjectRoots : List String) (identity : String) (count : Nat) : Prop :=
  2 ≤ count ∨ ¬ ∃ pathPrefix ∈ mappingIdentities platform workspaceProjectRoots, WorkspacePathMatches identity pathPrefix

instance promotedDecidable (workspaceProjectRoots : List String) (identity : String) (count : Nat) :
    Decidable (Promoted platform workspaceProjectRoots identity count) :=
  inferInstanceAs (Decidable (_ ∨ _))

def rootCandidates (threads : List ThreadBundle) (workspaceProjectRoots : List String) : List String :=
  workspaceProjectRoots ++ ((concretePaths platform threads).toList.filter fun path =>
    Promoted platform workspaceProjectRoots path.1 path.2.2).map fun path => path.2.1

-- The first 32 of the 64 digits of the display's digest.
def projectIdOf (lib : Primitives) (display : String) : String :=
  String.ofList ("local-".toList ++ (hexEncode (lib.sha256 (utf8 display.toList)).toList).take 32)

def rootOf (lib : Primitives) (root : String) : Option WorkspaceProjectRoot :=
  let display := nativeWorkspacePath platform root
  if rootIdentity platform root = "" then none
  else some { display := display, identity := rootIdentity platform root, projectId := projectIdOf lib display }

def distinctRoots (lib : Primitives) (threads : List ThreadBundle) (workspaceProjectRoots : List String) :
    List WorkspaceProjectRoot :=
  (((rootCandidates platform threads workspaceProjectRoots).filterMap (rootOf platform lib)).insertionSort fun left right =>
    left.identity ≤ right.identity).destutter fun left right => left.identity ≠ right.identity

end Roots

def asArray : Value → Option (List Value)
  | .array values => some values
  | _ => none

def listsRoot (identity : String) (value : Value) : Bool := (value.asStr.map (workspacePathIdentity platform)) = some identity

def hasRoot (identity : String) (project : Value) : Bool :=
  (((get project "rootPaths").bind asArray).getD []).any (listsRoot platform identity)

def withKnownProject (projects : Fields) (root : WorkspaceProjectRoot) : WorkspaceProjectRoot :=
  match projects.find? fun project => hasRoot platform root.identity project.2 with
  | some project => { root with projectId := project.1 }
  | none => root

def projectRoots (lib : Primitives) (state : Fields) (threads : List ThreadBundle) (workspaceProjectRoots : List String) :
    List WorkspaceProjectRoot :=
  (distinctRoots platform lib threads workspaceProjectRoots).map
    (withKnownProject platform (((fieldOf state "local-projects").bind asObject).getD []))

structure Assignment where
  threadId : String
  cwd : String
  projectId : String
  identity : String
deriving DecidableEq, Repr

-- Iterator::max_by_key, which keeps the later of two that are equal.
def laterLonger (best : Option WorkspaceProjectRoot) (next : WorkspaceProjectRoot) : Option WorkspaceProjectRoot :=
  match best with
  | none => some next
  | some best => if best.identity.utf8ByteSize ≤ next.identity.utf8ByteSize then some next else some best

def longestRoot (roots : List WorkspaceProjectRoot) (identity : String) : Option WorkspaceProjectRoot :=
  (roots.filter fun root => WorkspacePathMatches identity root.identity).foldl laterLonger none

def assignmentOf (roots : List WorkspaceProjectRoot) (thread : ThreadBundle) : Option Assignment :=
  (checkoutThreadWorkspacePath thread).bind fun cwd =>
    (longestRoot roots (rootIdentity platform cwd)).map fun root =>
      { threadId := thread.threadId, cwd := nativeWorkspacePath platform cwd, projectId := root.projectId, identity := root.identity }

-- A field that is missing is made an empty one.
def jsonObjectField (state : Fields) (key : String) : Except String Fields :=
  match fieldOf state key with
  | none => .ok []
  | some value => found (asObject value) ("Codex global state field " ++ key ++ " is not an object")

def jsonArrayField (state : Fields) (key : String) : Except String (List Value) :=
  match fieldOf state key with
  | none => .ok []
  | some value => found (asArray value) ("Codex global state field " ++ key ++ " is not an array")

def newProject (now : Int64) (root : WorkspaceProjectRoot) : Value :=
  let name := (platform.fileName root.display).filter fun name => name ≠ ""
  .object [("createdAt", .int now), ("id", .string root.projectId), ("name", .string (name.getD root.display)),
    ("rootPaths", .array [.string root.display]), ("updatedAt", .int now)]

def addProjects (now : Int64) : List WorkspaceProjectRoot → Fields → Except String (Fields × Bool)
  | [], projects => .ok (projects, false)
  | root :: rest, projects =>
      match fieldOf projects root.projectId with
      | some existing => do
          ensure (hasRoot platform root.identity existing = true) ("Codex project ID collision for " ++ root.display)
          addProjects now rest projects
      | none => do
          let (projects, _) ← addProjects now rest (insertField root.projectId (newProject platform now root) projects)
          return (projects, true)

-- The two lists of the state that name every project: a root that is not in it is put at its end.
def pushMissing (names : WorkspaceProjectRoot → Value → Bool) (entry : WorkspaceProjectRoot → Value) :
    List WorkspaceProjectRoot → List Value → List Value × Bool
  | [], values => (values, false)
  | root :: rest, values =>
      if values.any (names root) then pushMissing names entry rest values
      else ((pushMissing names entry rest (values ++ [entry root])).1, true)

def isProjectId (root : WorkspaceProjectRoot) (value : Value) : Bool := value.asStr = some root.projectId

def orderProjects : List WorkspaceProjectRoot → List Value → List Value × Bool :=
  pushMissing isProjectId fun root => .string root.projectId

def saveRoots : List WorkspaceProjectRoot → List Value → List Value × Bool :=
  pushMissing (fun root => listsRoot platform root.identity) fun root => .string root.display

def Assignment.toValue (assignment : Assignment) : Value :=
  .object [("cwd", .string assignment.cwd), ("pendingCoreUpdate", .bool false), ("projectId", .string assignment.projectId),
    ("projectKind", .string "local")]

-- Equality with the value that the assignment is written as.
def Assignment.is (assignment : Assignment) : Value → Bool
  | .object [(first, .string cwd), (second, .bool pending), (third, .string projectId), (fourth, .string kind)] =>
      [first, second, third, fourth] = ["cwd", "pendingCoreUpdate", "projectId", "projectKind"] && cwd = assignment.cwd &&
        pending = false &&
        projectId = assignment.projectId && kind = "local"
  | _ => false

def assignThreads : List Assignment → Fields → Fields × Bool
  | [], entries => (entries, false)
  | assignment :: rest, entries =>
      if (fieldOf entries assignment.threadId).any assignment.is then assignThreads rest entries
      else ((assignThreads rest (insertField assignment.threadId assignment.toValue entries)).1, true)

-- What is not a text stays among the projectless ids.
def stillProjectless (assignments : List Assignment) (value : Value) : Bool :=
  value.asStr.all fun threadId => ¬ ∃ assignment ∈ assignments, assignment.threadId = threadId

def dropProjectless (assignments : List Assignment) (state : Fields) : Fields × Bool :=
  match (fieldOf state "projectless-thread-ids").bind asArray with
  | none => (state, false)
  | some values =>
      let kept := values.filter (stillProjectless assignments)
      (insertField "projectless-thread-ids" (.array kept) state, values.length ≠ kept.length)

def assignProjects (now : Int64) (state : Fields) (used : List WorkspaceProjectRoot) (assignments : List Assignment) :
    Except String (Fields × Bool) := do
  let projects ← jsonObjectField state "local-projects"
  let (projects, added) ← addProjects platform now used projects
  let state := insertField "local-projects" (.object projects) state
  let order ← jsonArrayField state "project-order"
  let (order, ordered) := orderProjects used order
  let state := insertField "project-order" (.array order) state
  let saved ← jsonArrayField state "electron-saved-workspace-roots"
  let (saved, kept) := saveRoots platform used saved
  let state := insertField "electron-saved-workspace-roots" (.array saved) state
  let entries ← jsonObjectField state "thread-project-assignments"
  let (entries, assigned) := assignThreads assignments entries
  let state := insertField "thread-project-assignments" (.object entries) state
  let (state, dropped) := dropProjectless assignments state
  return (state, added || ordered || kept || assigned || dropped)

def applyProjectAssignments (lib : Primitives) (now : Int64) (state : Value) (threads : List ThreadBundle)
    (workspaceProjectRoots : List String) : Except String (Value × Bool) := do
  let state ← found (asObject state) "Codex global state is not a JSON object"
  let roots := projectRoots platform lib state threads workspaceProjectRoots
  let assignments := threads.filterMap (assignmentOf platform roots)
  if assignments = [] then return (.object state, false)
  else
    let used := roots.filter fun root => ∃ assignment ∈ assignments, assignment.identity = root.identity
    let (state, changed) ← assignProjects platform now state used assignments
    return (.object state, changed)

end SessionSync.Checkout
