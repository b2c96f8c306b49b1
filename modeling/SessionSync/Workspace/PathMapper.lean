import SessionSync.Config.Workspaces
import SessionSync.Core.ThreadView
import SessionSync.Rollout.SessionMeta

set_option autoImplicit false

namespace SessionSync.Workspace

open SessionSync.Core Checked Config

structure WorkspacePathMapping where
  remotePrefix : List Char
  localPrefix : List Char
deriving DecidableEq, Repr

-- The prefix that is looked for and the one that takes its place.
def WorkspacePathMapping.source (mapping : WorkspacePathMapping) (remoteToLocal : Bool) : List Char :=
  if remoteToLocal then mapping.remotePrefix else mapping.localPrefix

def WorkspacePathMapping.target (mapping : WorkspacePathMapping) (remoteToLocal : Bool) : List Char :=
  if remoteToLocal then mapping.localPrefix else mapping.remotePrefix

structure WorkspacePathMapper where
  mappings : List WorkspacePathMapping
deriving DecidableEq, Repr

def newMapping (mapping : String × String) : Except String WorkspacePathMapping := do
  let remote ← normalizePrefix mapping.1.toList
  let local_ ← normalizePrefix mapping.2.toList
  return ⟨remote, local_⟩

def WorkspacePathMapper.new (mappings : List (String × String)) : Except String WorkspacePathMapper := do
  let mappings ← mappings.mapM newMapping
  rejectAmbiguous (mappings.map WorkspacePathMapping.remotePrefix)
  rejectAmbiguous (mappings.map WorkspacePathMapping.localPrefix)
  return ⟨mappings⟩

def byteLength (text : List Char) : Nat := (text.map Char.utf8Size).sum

-- &text[bytes..], which panics inside a character.
def sliceFrom : List Char → Nat → Except String (List Char)
  | text, 0 => .ok text
  | [], _ + 1 => .error "byte index is out of bounds"
  | c :: rest, bytes + 1 =>
      if c.utf8Size ≤ bytes + 1 then sliceFrom rest (bytes + 1 - c.utf8Size) else .error "byte index is not a char boundary"

def isSeparator (c : Char) : Bool := c = '/' || c = '\\'

def trimSeparators (path : List Char) : List Char := (path.reverse.dropWhile isSeparator).reverse

-- A prefix covers itself and every path below it.
def Covers (matchPrefix matchPath : List Char) : Prop := matchPath = matchPrefix ∨ (matchPrefix ++ ['/']) <+: matchPath

instance coversDecidable (matchPrefix matchPath : List Char) : Decidable (Covers matchPrefix matchPath) :=
  inferInstanceAs (Decidable (_ ∨ _))

def replacePrefix (path source target : List Char) : Except String (Option (List Char)) := do
  let normalizedPath := normalizePathSyntax path
  let normalizedSource := normalizePathSyntax source
  if Covers (normalizePathForMatch normalizedSource) (normalizePathForMatch normalizedPath) then
    let suffix ← sliceFrom normalizedPath (min (byteLength normalizedSource) (byteLength normalizedPath))
    let separator := if '\\' ∈ target ∧ '/' ∉ target then '\\' else '/'
    let suffix := (suffix.dropWhile isSeparator).map fun c => if isSeparator c then separator else c
    return some (if suffix = [] then target else trimSeparators target ++ separator :: suffix)
  else return none

structure Candidate where
  mapping : WorkspacePathMapping
  prefixLength : Nat
  mapped : List Char
deriving DecidableEq, Repr

def candidates (path : List Char) (remoteToLocal : Bool) : List WorkspacePathMapping → Except String (List Candidate)
  | [] => .ok []
  | mapping :: rest => do
      let mapped ← replacePrefix path (mapping.source remoteToLocal) (mapping.target remoteToLocal)
      let length := (normalizePathForMatch (mapping.source remoteToLocal)).length
      let others ← candidates path remoteToLocal rest
      return (mapped.map fun mapped => ⟨mapping, length, mapped⟩).toList ++ others

-- Iterator::max_by_key, which keeps the later of two that are equal.
def laterMax (best : Option Candidate) (next : Candidate) : Option Candidate :=
  match best with
  | none => some next
  | some best => if best.prefixLength ≤ next.prefixLength then some next else some best

def select (mapper : WorkspacePathMapper) (path : List Char) (remoteToLocal : Bool) : Except String (Option Candidate) := do
  let found ← candidates path remoteToLocal mapper.mappings
  return found.foldl laterMax none

def WorkspacePathMapper.mapPath (mapper : WorkspacePathMapper) (path : List Char) (remoteToLocal : Bool) :
    Except String (Option (List Char)) := do
  let selected ← select mapper path remoteToLocal
  return selected.map Candidate.mapped

def mapText (mapper : WorkspacePathMapper) (remoteToLocal : Bool) (path : String) : Except String (Option String) := do
  let mapped ← mapper.mapPath path.toList remoteToLocal
  return mapped.map String.ofList

def mapRow (mapper : WorkspacePathMapper) (remoteToLocal : Bool) : Value → Except String Value
  | .object row =>
      match (fieldOf row "cwd").bind Value.asStr with
      | none => .ok (.object row)
      | some path => do
          let mapped ← mapText mapper remoteToLocal path
          return match mapped with
            | none => .object row
            | some mapped => .object (Rollout.insertField "cwd" (.string mapped) row)
  | other => .ok other

def mapSourcePath (mapper : WorkspacePathMapper) (remoteToLocal : Bool) : Option String → Except String (Option String)
  | none => .ok none
  | some path => do
      let mapped ← mapText mapper remoteToLocal path
      return some (mapped.getD path)

def mapTables (mapper : WorkspacePathMapper) (remoteToLocal : Bool) (tables : Std.ExtTreeMap String (List Value)) :
    Except String (Std.ExtTreeMap String (List Value)) :=
  match tables["threads"]? with
  | none => .ok tables
  | some rows => do
      let rows ← rows.mapM (mapRow mapper remoteToLocal)
      return tables.insert "threads" rows

def mapThreadPaths (mapper : WorkspacePathMapper) (remoteToLocal : Bool) (thread : ThreadBundle) : Except String ThreadBundle := do
  let sourcePath ← mapSourcePath mapper remoteToLocal thread.workspace.sourcePath
  let tables ← mapTables mapper remoteToLocal thread.relatedRecords.tables
  return { thread with
    workspace := { thread.workspace with sourcePath := sourcePath }
    relatedRecords := { thread.relatedRecords with tables := tables } }

-- materialize_snapshot and canonicalize_snapshot, which differ in the direction.
def mapSnapshot (mapper : WorkspacePathMapper) (remoteToLocal : Bool) (snapshot : LocalSnapshot) : Except String LocalSnapshot := do
  let threads ← snapshot.threads.mapM (mapThreadPaths mapper remoteToLocal)
  return { snapshot with threads := threads }

def materializeSnapshot (mapper : WorkspacePathMapper) (snapshot : LocalSnapshot) : Except String LocalSnapshot :=
  mapSnapshot mapper true snapshot

def canonicalizeSnapshot (mapper : WorkspacePathMapper) (snapshot : LocalSnapshot) : Except String LocalSnapshot :=
  mapSnapshot mapper false snapshot

end SessionSync.Workspace
