import SessionSync.Workspace.DirectoryMoves
import SessionSync.Workspace.FieldSteps
import SessionSync.Workspace.PathMapper

set_option autoImplicit false

namespace SessionSync.Workspace

open SessionSync.Core Checked Local Config Rollout

structure CodexProjectCleanupResult where
  changed : Bool
  removedProjects : Nat
  removedAssignments : Nat
deriving DecidableEq, Repr

-- What one part of the removal adds to its result.
structure Pruned where
  changed : Bool := false
  removedProjectIds : List String := []
  removedAssignments : Nat := 0
deriving DecidableEq, Repr

def total (notes : List Pruned) : CodexProjectCleanupResult where
  changed := notes.any Pruned.changed
  removedProjects := (notes.flatMap Pruned.removedProjectIds).length
  removedAssignments := (notes.map Pruned.removedAssignments).sum

def asArray : Value → Option (List Value)
  | .array values => some values
  | _ => none

def pathIsSameOrChild (path parent : List Char) : Bool :=
  decide (Covers (normalizePathForMatch parent) (normalizePathForMatch path))

variable (selectedPaths : List (List Char))

theorem selected_elem (path : List Char) : selectedPaths.elem path = true ↔ path ∈ selectedPaths := List.elem_iff

instance selectedDecidable (path : List Char) : Decidable (path ∈ selectedPaths) :=
  decidable_of_iff _ (selected_elem selectedPaths path)

def isSelected (path : String) : Bool := decide (normalizePathForMatch path.toList ∈ selectedPaths)

def belowSelected (path : String) : Bool := selectedPaths.any fun selected => pathIsSameOrChild path.toList selected

-- value.as_str().is_none_or(..)
def staysUnless (drops : String → Bool) (value : Value) : Bool := value.asStr.all fun text => !drops text

def projectIdOf (value : Value) : Option String := (get value "projectId").bind Value.asStr

def retainValues (drops : String → Bool) (error : String) (value : Value) : Except String (Option Value × Pruned) := do
  let values ← found (asArray value) error
  let kept := values.filter (staysUnless drops)
  return (some (.array kept), { changed := decide (kept.length ≠ values.length) })

def pruneProject (id : String) (project : Value) : Except String (Value × Pruned) := do
  let fields ← found (asObject project) ("Codex project " ++ id ++ " is not an object")
  match fieldOf fields "rootPaths" with
  | none => return (project, {})
  | some rootPaths => do
      let roots ← found (asArray rootPaths) ("Codex project " ++ id ++ " rootPaths is not an array")
      let kept := roots.filter (staysUnless (isSelected selectedPaths))
      return (.object (insertField "rootPaths" (.array kept) fields),
        { changed := decide (kept.length ≠ roots.length)
          removedProjectIds := if !roots.isEmpty && kept.isEmpty then [id] else [] })

def pruneEntry (project : String × Value) : Except String ((String × Value) × Pruned) := do
  let (pruned, note) ← pruneProject selectedPaths project.1 project.2
  return ((project.1, pruned), note)

def pruneProjects (value : Value) : Except String (Option Value × Pruned) := do
  let projects ← found (asObject value) "Codex global state local-projects field is not an object"
  let pruned ← projects.mapM (pruneEntry selectedPaths)
  let removed := (pruned.map Prod.snd).flatMap Pruned.removedProjectIds
  return (some (.object ((pruned.map Prod.fst).filter fun project => decide (project.1 ∉ removed))),
    { changed := (pruned.map Prod.snd).any Pruned.changed
      removedProjectIds := removed })

def deselect (removed : List String) (value : Value) : Except String (Option Value × Pruned) :=
  if (projectIdOf value).any (· ∈ removed) then .ok (none, { changed := true }) else .ok (some value, {})

-- Map::retain, which says how many entries are gone.
def retainEntries (drops : Value → Bool) (error : String) (value : Value) : Except String (Value × Nat) := do
  let entries ← found (asObject value) error
  let kept := entries.filter fun entry => !drops entry.2
  return (.object kept, entries.length - kept.length)

def dropsAssignment (removed : List String) (assignment : Value) : Bool :=
  (projectIdOf assignment).any (· ∈ removed) || ((get assignment "cwd").bind Value.asStr).any (belowSelected selectedPaths)

def retainAssignments (removed : List String) (value : Value) : Except String (Option Value × Pruned) := do
  let (kept, gone) ← retainEntries (dropsAssignment selectedPaths removed)
    "Codex global state thread-project-assignments field is not an object" value
  return (some kept, ⟨decide (0 < gone), [], gone⟩)

def retainHints (value : Value) : Except String (Option Value × Pruned) := do
  let (kept, gone) ← retainEntries (fun path => path.asStr.any (belowSelected selectedPaths))
    "Codex global state thread-workspace-root-hints field is not an object" value
  return (some kept, { changed := decide (0 < gone) })

def retainRoots (entry : String × Value) : Except String ((String × Value) × Bool) := do
  let roots ← found (asArray entry.2) "Codex thread writable roots entry is not an array"
  let kept := roots.filter (staysUnless (belowSelected selectedPaths))
  return ((entry.1, .array kept), decide (kept.length ≠ roots.length))

def retainWritableRoots (value : Value) : Except String (Option Value × Pruned) := do
  let entries ← found (asObject value) "Codex global state thread-writable-roots field is not an object"
  let kept ← entries.mapM (retainRoots selectedPaths)
  return (some (.object (kept.map Prod.fst)), { changed := kept.any Prod.snd })

def localProjects : FieldStep Pruned := ⟨"local-projects", pruneProjects selectedPaths⟩

-- The other fields, in the order in which they are pruned.
def references (removed : List String) : List (FieldStep Pruned) :=
  [⟨"active-workspace-roots",
    retainValues (isSelected selectedPaths) "Codex global state active-workspace-roots field is not an array"⟩,
   ⟨"electron-saved-workspace-roots",
      retainValues (isSelected selectedPaths) "Codex global state electron-saved-workspace-roots field is not an array"⟩,
   ⟨"project-order", retainValues (fun id => decide (id ∈ removed)) "Codex global state project-order field is not an array"⟩,
   ⟨"selected-project", deselect removed⟩,
   ⟨"thread-project-assignments", retainAssignments selectedPaths removed⟩,
   ⟨"thread-workspace-root-hints", retainHints selectedPaths⟩,
   ⟨"thread-writable-roots", retainWritableRoots selectedPaths⟩]

-- What an error leaves behind is a clone that the callers drop.
def removeCodexProjectPaths (state : Value) : Except String (Value × CodexProjectCleanupResult) := do
  let fields ← found (asObject state) "Codex global state is not a JSON object"
  let (fields, first) ← (localProjects selectedPaths).apply fields
  let (fields, others) ← runSteps (references selectedPaths (first.flatMap Pruned.removedProjectIds)) fields
  return (.object fields, total (first ++ others))

section EmptyProjects

structure CodexProjectPath where
  projectName : String
  path : String
deriving DecidableEq, Repr

structure CodexGlobalState where
  bytes : Bytes
  value : Value
  projectPaths : List CodexProjectPath

-- serde_json::from_slice and the scan of the Codex home.
structure ProjectEnv extends CleanupEnv where
  windows : Bool
  parse : Bytes → Except String Value
  parsed : ∀ bytes value, parse bytes = .ok value → WellFormed value
  scanCodexHome : CleanupDisk → Except String LocalSnapshot

def maxCodexGlobalStateBytes : Nat := 16 * 1024 * 1024

def displayWorkspacePath (windows : Bool) (path : List Char) : List Char :=
  let unc := "\\\\?\\UNC\\".toList
  let verbatim := "\\\\?\\".toList
  if windows && unc.isPrefixOf path then "\\\\".toList ++ path.drop unc.length
  else if windows && verbatim.isPrefixOf path then path.drop verbatim.length
  else path

def projectPathsOf (windows : Bool) (project : String × Value) : Except String (List CodexProjectPath) := do
  let fields ← found (asObject project.2) ("Codex project " ++ project.1 ++ " is not an object")
  let name := ((fieldOf fields "name").bind Value.asStr).getD project.1
  match fieldOf fields "rootPaths" with
  | none => return []
  | some rootPaths => do
      let roots ← found (asArray rootPaths) ("Codex project " ++ project.1 ++ " rootPaths is not an array")
      let roots ← roots.mapM fun root => found root.asStr ("Codex project " ++ project.1 ++ " contains a non-string root path")
      return (roots.filter fun root => decide (Server.trim root ≠ [])).map fun root =>
        ⟨name, String.ofList (displayWorkspacePath windows root.toList)⟩

def projectPaths (windows : Bool) (state : Value) : Except String (List CodexProjectPath) := do
  let fields ← found (asObject state) "Codex global state is not a JSON object"
  match fieldOf fields "local-projects" with
  | none => return []
  | some projects => do
      let projects ← found (asObject projects) "Codex global state local-projects field is not an object"
      let paths ← projects.mapM (projectPathsOf windows)
      return paths.flatten

def loadCodexGlobalState (env : ProjectEnv) (codexHome : String) (disk : CleanupDisk) : Except String (Option CodexGlobalState) :=
  match disk.globalStates (globalStatePath codexHome) with
  | none => .ok none
  | some bytes => do
      ensure (bytes.length ≤ maxCodexGlobalStateBytes) "Codex global state exceeds the 16777216 byte safety limit"
      let value ← (env.parse bytes).mapError fun _ => "failed to parse Codex global state " ++ globalStatePath codexHome
      let paths ← projectPaths env.windows value
      return some ⟨bytes, value, paths⟩

-- The roots that no conversation is in or below, in their form for matching.
def emptyRoots (paths : List CodexProjectPath) (referencedPaths : List String) : List (List Char) :=
  (paths.filter fun project => !referencedPaths.any fun path => pathIsSameOrChild path.toList project.path.toList).map
    fun project => normalizePathForMatch project.path.toList

def rewriteGlobalState (env : ProjectEnv) (codexHome : String) (globalState : CodexGlobalState) (selectedPaths : List (List Char)) :
    CleanupAccess Nat := do
  let (updated, result) ← Prog.ofExcept (removeCodexProjectPaths selectedPaths globalState.value)
  if result.changed then do
    replaceFileIfHashMatches env.toCleanupEnv (globalStatePath codexHome) (digestBytes env.lib globalState.bytes)
      (utf8 (writeJson env.lib updated))
    return result.removedProjects
  else return 0

def removeEmptyCodexProjects (env : ProjectEnv) (codexHome : String) : CleanupAccess Nat := do
  let loaded ← inspect (loadCodexGlobalState env codexHome)
  match loaded with
  | none => return 0
  | some globalState => do
      let snapshot ← inspect env.scanCodexHome
      let referencedPaths := snapshot.threads.filterMap fun thread => thread.workspace.sourcePath
      let selectedPaths := emptyRoots globalState.projectPaths referencedPaths
      if selectedPaths.isEmpty then return 0 else rewriteGlobalState env codexHome globalState selectedPaths

end EmptyProjects

end SessionSync.Workspace
