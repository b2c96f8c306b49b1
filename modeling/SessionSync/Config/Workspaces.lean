import SessionSync.Config.Rules
import SessionSync.Server.History

set_option autoImplicit false

namespace SessionSync.Config

open SessionSync.Core Checked

structure WorkspaceMappingRule where
  id : Uuid
  remoteId : Uuid
  namespaceId : Uuid
  codexHomeKey : String
  remotePrefix : String
  localPrefix : String
  createdAt : String
  updatedAt : String
deriving DecidableEq, Repr

structure WorkspaceMappingFile where
  schemaVersion : UInt32
  mappings : List WorkspaceMappingRule
deriving DecidableEq, Repr

-- Remote, namespace and Codex home.
abbrev WorkspaceScope := Uuid × Uuid × String

structure WorkspaceMappingState where
  scope : WorkspaceScope
  mappings : List WorkspaceMappingRule
deriving DecidableEq, Repr

-- What the system says of a call's Codex home.
structure WorkspaceTarget where
  codexHome : String
  resolved : Option String
  remoteId : Uuid
  namespaceId : Uuid
deriving DecidableEq, Repr

-- A selection, the id drawn for its rule and what is at its local path.
structure WorkspacePathSelection where
  remotePath : String
  localPath : String
  id : Uuid
  present : Bool
  isDirectory : Bool
deriving DecidableEq, Repr

inductive WorkspaceChange where
  | create (remotePrefix localPrefix : String) (id : Uuid) (now : String) (isDirectory : Bool)
  | createAutomatic (selections : List WorkspacePathSelection) (now : String) (refused : List String)
  | delete (mappingId : Uuid)
deriving DecidableEq, Repr

def workspaceMappingSchemaVersion : UInt32 := 1
def workspaceConfigBytes : Nat := 256 * 1024
def workspaceMappingLimit : Nat := 128

section Paths

def slashes (path : List Char) : List Char := path.map fun c => if c = '\\' then '/' else c

-- The second byte is a colon.
def hasDrive : List Char → Bool
  | first :: second :: _ => first.toNat < 0x80 && second = ':'
  | _ => false

def trimSlashes (path : List Char) : List Char := (path.reverse.dropWhile fun c => c = '/').reverse

def looksLikeWindowsPath (path : List Char) : Bool := "//".toList.isPrefixOf path || hasDrive path

def foldCase (path : List Char) : List Char := if looksLikeWindowsPath path then path.map Char.toLower else path

def normalizePathSyntax (path : List Char) : List Char :=
  let normalized := slashes path
  if "//?/".toList.isPrefixOf normalized then
    let verbatim := normalized.drop 4
    if (verbatim.take 4).map Char.toLower = "unc/".toList then "//".toList ++ verbatim.drop 4
    else if hasDrive verbatim then verbatim else normalized
  else normalized

def normalizePathForMatch (path : List Char) : List Char := foldCase (trimSlashes (normalizePathSyntax path))

def normalizePathForLegacyMatch (path : List Char) : List Char := foldCase (trimSlashes (slashes path))

def normalizePrefix (path : List Char) : Except String (List Char) := do
  let path := Server.trim (String.ofList path)
  ensure (path ≠ []) "workspace path mapping prefixes must not be empty"
  let trimmed := trimSlashes (normalizePathSyntax path)
  ensure (trimmed ≠ []) "workspace path mapping prefixes must not be filesystem roots"
  return trimmed

def rejectAmbiguous : List (List Char) → Except String Unit
  | [] => .ok ()
  | left :: rest => do
      ensure (∀ right ∈ rest, normalizePathForMatch left ≠ normalizePathForMatch right)
        ("workspace path mappings contain a duplicate prefix: " ++ String.ofList left)
      rejectAmbiguous rest

-- WorkspacePathMapper::new for its checks.
def checkMapper (mappings : List (String × String)) : Except String Unit := do
  let normal ← mappings.mapM fun mapping => do
    let remote ← normalizePrefix mapping.1.toList
    let local_ ← normalizePrefix mapping.2.toList
    return (remote, local_)
  rejectAmbiguous (normal.map Prod.fst)
  rejectAmbiguous (normal.map Prod.snd)

end Paths

variable (lib : Primitives) (serde : Serde WorkspaceMappingFile)

def scopeOf (mapping : WorkspaceMappingRule) : WorkspaceScope := (mapping.remoteId, mapping.namespaceId, mapping.codexHomeKey)

-- A rule is known by its scope and by the normal form of its remote prefix.
def mappingKey (mapping : WorkspaceMappingRule) : WorkspaceScope × List Char :=
  (scopeOf mapping, normalizePathForMatch mapping.remotePrefix.toList)

def legacyForm (mapping : WorkspaceMappingRule) : List Char := normalizePathForLegacyMatch mapping.remotePrefix.toList

def collapsible (mappings : List WorkspaceMappingRule) (key : WorkspaceScope × List Char) : Bool :=
  decide (∃ one ∈ mappings, ∃ other ∈ mappings, mappingKey one = key ∧ mappingKey other = key ∧ legacyForm one ≠ legacyForm other)

def retainFirst (collapses : WorkspaceScope × List Char → Bool) (seen : List (WorkspaceScope × List Char)) :
    List WorkspaceMappingRule → List WorkspaceMappingRule
  | [] => []
  | mapping :: rest =>
      if collapses (mappingKey mapping) then
        if mappingKey mapping ∈ seen then retainFirst collapses seen rest
        else mapping :: retainFirst collapses (mappingKey mapping :: seen) rest
      else mapping :: retainFirst collapses seen rest

def deduplicateLegacyVerbatimRemoteRules (mappings : List WorkspaceMappingRule) : List WorkspaceMappingRule :=
  retainFirst (collapsible mappings) [] mappings

-- The texts of the last two errors are chrono's.
def validateRule (mapping : WorkspaceMappingRule) : Except String Unit := do
  ensure (Server.trim mapping.remotePrefix ≠ [] ∧ Server.trim mapping.localPrefix ≠ []) "workspace mapping prefixes must not be empty"
  ensure (mapping.remotePrefix.length ≤ 1024 ∧ mapping.localPrefix.length ≤
    1024) "workspace mapping prefixes must not exceed 1024 characters"
  ensure (mapping.remotePrefix.toList.any Server.isControl = false ∧ mapping.localPrefix.toList.any Server.isControl = false)
    "workspace mapping prefixes must not contain control characters"
  ensure (lib.isRfc3339 mapping.createdAt = true) mapping.createdAt
  ensure (lib.isRfc3339 mapping.updatedAt = true) mapping.updatedAt

def validateRules (ids : List Uuid) : List WorkspaceMappingRule → Except String Unit
  | [] => .ok ()
  | mapping :: rest => do
      validateRule lib mapping
      ensure (mapping.id ∉ ids) "workspace mapping file contains duplicate rule IDs"
      validateRules (mapping.id :: ids) rest

def prefixes (mappings : List WorkspaceMappingRule) (scope : WorkspaceScope) : List (String × String) :=
  (mappings.filter fun mapping => scopeOf mapping = scope).map fun mapping => (mapping.remotePrefix, mapping.localPrefix)

def validateFile (file : WorkspaceMappingFile) : Except String Unit := do
  ensure (file.schemaVersion = workspaceMappingSchemaVersion)
    ("unsupported workspace mapping schema version " ++ toString file.schemaVersion.toNat)
  ensure (file.mappings.length ≤ workspaceMappingLimit) "workspace mapping file exceeds the 128 rule limit"
  validateRules lib [] file.mappings
  let effective := deduplicateLegacyVerbatimRemoteRules file.mappings
  let scopes := (effective.map scopeOf).dedup.insertionSort fun one other => (compare one other).isLE = true
  scopes.forM fun scope => checkMapper (prefixes effective scope)

def checkWorkspace (call : WorkspaceTarget × WorkspaceChange) : Except String (WorkspaceScope × WorkspaceChange) := do
  let home ← found call.1.resolved ("failed to resolve Codex home " ++ call.1.codexHome)
  return ((call.1.remoteId, call.1.namespaceId, home), call.2)

def candidateRule (scope : WorkspaceScope) (id : Uuid) (remotePrefix localPrefix now : String) : WorkspaceMappingRule :=
  { id := id, remoteId := scope.1, namespaceId := scope.2.1, codexHomeKey := scope.2.2,
    remotePrefix := String.ofList (Server.trim remotePrefix), localPrefix := String.ofList (Server.trim localPrefix),
    createdAt := now, updatedAt := now }

-- The rules of the selections and the directories to create for them.
def automaticRules (scope : WorkspaceScope) (now : String) (seen : List (List Char)) :
    List WorkspacePathSelection → Except String (List WorkspaceMappingRule × List String)
  | [] => .ok ([], [])
  | selection :: rest => do
      let rule := candidateRule scope selection.id selection.remotePath selection.localPath now
      ensure (rule.remotePrefix ≠ "" ∧ rule.localPrefix ≠ "") "workspace path selections must contain both remote and local paths"
      let remote := normalizePathForMatch rule.remotePrefix.toList
      ensure (remote ∉ seen) "workspace path selections contain a duplicate remote path"
      ensure (selection.present = true → selection.isDirectory = true)
        ("workspace mapping target exists but is not a directory: " ++ rule.localPrefix)
      validateRule lib rule
      let (rules, directories) ← automaticRules scope now (remote :: seen) rest
      return (rule :: rules, if selection.isDirectory then directories else rule.localPrefix :: directories)

def createDirectories (directories refused : List String) : Except String Unit :=
  match directories.find? (· ∈ refused) with
  | some directory => .error ("failed to create automatic workspace directory " ++ directory)
  | none => .ok ()

-- A change leaves its scope, from which the answer is read, and the directories it created.
def changeWorkspace (arguments : WorkspaceScope × WorkspaceChange) (file : WorkspaceMappingFile) :
    Except String (WorkspaceMappingFile × WorkspaceScope × List String) :=
  let scope := arguments.1
  match arguments.2 with
  | .create remotePrefix localPrefix id now isDirectory => do
      ensure (file.mappings.length < workspaceMappingLimit) "workspace mapping limit of 128 was reached"
      let candidate := candidateRule scope id remotePrefix localPrefix now
      validateRule lib candidate
      ensure (isDirectory = true) ("local workspace mapping target is not an existing directory: " ++ candidate.localPrefix)
      checkMapper (prefixes file.mappings scope ++ [(candidate.remotePrefix, candidate.localPrefix)])
      return ({ file with mappings := file.mappings ++ [candidate] }, scope, [])
  | .createAutomatic selections now refused => do
      ensure (selections ≠ []) "at least one workspace path selection is required"
      ensure (file.mappings.length + selections.length ≤ workspaceMappingLimit)
        "automatic workspace mappings would exceed the 128 rule limit"
      let (rules, directories) ← automaticRules lib scope now [] selections
      checkMapper (prefixes file.mappings scope ++ rules.map fun rule => (rule.remotePrefix, rule.localPrefix))
      createDirectories directories refused
      return ({ file with mappings := file.mappings ++ rules }, scope, directories)
  | .delete mappingId => do
      let kept := file.mappings.filter fun mapping => mapping.id ≠ mappingId ∨ scopeOf mapping ≠ scope
      ensure (kept.length ≠ file.mappings.length) ("workspace mapping " ++ mappingId.text ++ " was not found")
      return ({ file with mappings := kept }, scope, [])

def decodeWorkspaces (bytes : Bytes) : Except String WorkspaceMappingFile := do
  ensure (bytes.length ≤ workspaceConfigBytes) "workspace mapping file exceeds the 262144 byte safety limit"
  let file ← serde.parse bytes
  validateFile lib file
  return { file with mappings := deduplicateLegacyVerbatimRemoteRules file.mappings }

def stateOf (scope : WorkspaceScope) (file : WorkspaceMappingFile) : WorkspaceMappingState :=
  { scope := scope,
    mappings := (file.mappings.filter fun mapping => scopeOf mapping = scope).insertionSort fun one other =>
      one.createdAt ≤ other.createdAt }

def workspaceMappingStore : Store WorkspaceMappingFile (WorkspaceTarget × WorkspaceChange) (WorkspaceScope × WorkspaceChange)
    (WorkspaceScope × List String) (WorkspaceMappingState × List String) where
  default := { schemaVersion := workspaceMappingSchemaVersion, mappings := [] }
  decode := decodeWorkspaces lib serde
  check := checkWorkspace
  change := changeWorkspace lib
  validate := validateFile lib
  encode := serde.print
  answer saved := .inr fun file => (stateOf saved.1 file, saved.2)

def holdsWorkspaceRule (file : Option Bytes) (key : WorkspaceScope × List Char) : Prop :=
  ∃ bytes document, file = some bytes ∧ serde.parse bytes = .ok document ∧ key ∈ document.mappings.map mappingKey

def deletesWorkspaceRule (call : WorkspaceTarget × WorkspaceChange) (file : WorkspaceMappingFile)
    (key : WorkspaceScope × List Char) : Prop :=
  ∃ rule ∈ file.mappings, mappingKey rule = key ∧ call.2 = .delete rule.id ∧
    call.1.resolved = some rule.codexHomeKey ∧ call.1.remoteId = rule.remoteId ∧ call.1.namespaceId = rule.namespaceId

theorem retain_keys (collapses : WorkspaceScope × List Char → Bool) (seen : List (WorkspaceScope × List Char))
    (mappings : List WorkspaceMappingRule) (key : WorkspaceScope × List Char) (there : key ∈ mappings.map mappingKey) :
    key ∈ seen ∨ key ∈ (retainFirst collapses seen mappings).map mappingKey := by
  induction mappings generalizing seen with
  | nil => cases there
  | cons mapping rest ih =>
      rw [retainFirst]
      rcases List.mem_cons.mp there with rfl | later
      · by_cases earlier : mappingKey mapping ∈ seen
        · exact .inl earlier
        · rw [if_neg earlier]
          split <;> exact .inr List.mem_cons_self
      · split
        · by_cases earlier : mappingKey mapping ∈ seen
          · rw [if_pos earlier]
            exact ih seen later
          · rw [if_neg earlier]
            rcases ih (mappingKey mapping :: seen) later with inside | kept
            · rcases List.mem_cons.mp inside with rfl | inside
              · exact .inr List.mem_cons_self
              · exact .inl inside
            · exact .inr (List.mem_cons_of_mem _ kept)
        · rcases ih seen later with inside | kept
          · exact .inl inside
          · exact .inr (List.mem_cons_of_mem _ kept)

-- Collapsing legacy rules leaves one rule for every prefix.
theorem deduplicate_keys (mappings : List WorkspaceMappingRule) (key : WorkspaceScope × List Char)
    (there : key ∈ mappings.map mappingKey) :
    key ∈ (deduplicateLegacyVerbatimRemoteRules mappings).map mappingKey := by
  rcases retain_keys (collapsible mappings) [] mappings key there with inside | kept
  · cases inside
  · exact kept

theorem change_workspace_keeps (call : WorkspaceTarget × WorkspaceChange) (arguments : WorkspaceScope × WorkspaceChange)
    (file : WorkspaceMappingFile) (changed : WorkspaceMappingFile × WorkspaceScope × List String)
    (checked : checkWorkspace call = .ok arguments) (done : changeWorkspace lib arguments file = .ok changed)
    (key : WorkspaceScope × List Char) (there : key ∈ file.mappings.map mappingKey)
    (undeleted : ¬ deletesWorkspaceRule call file key) :
    key ∈ changed.1.mappings.map mappingKey := by
  obtain ⟨target, change⟩ := call
  simp only [checkWorkspace, bind_ok, found_ok, pure_ok] at checked
  obtain ⟨home, resolved, rfl⟩ := checked
  cases change with
  | create remotePrefix localPrefix id now isDirectory =>
      simp only [changeWorkspace, bind_ok, pure_ok] at done
      obtain ⟨_, _, _, _, _, _, _, _, rfl⟩ := done
      rw [List.map_append]
      exact List.mem_append_left _ there
  | createAutomatic selections now refused =>
      simp only [changeWorkspace, bind_ok, pure_ok] at done
      obtain ⟨_, _, _, _, rules, _, _, _, _, _, rfl⟩ := done
      rw [List.map_append]
      exact List.mem_append_left _ there
  | delete mappingId =>
      simp only [changeWorkspace, bind_ok, pure_ok] at done
      obtain ⟨_, _, rfl⟩ := done
      obtain ⟨rule, member, rfl⟩ := List.mem_map.mp there
      refine List.mem_map_of_mem (List.mem_filter.mpr ⟨member, decide_eq_true ?_⟩)
      by_contra both
      obtain ⟨sameId, sameScope⟩ := not_or.mp both
      rw [not_not] at sameId sameScope
      simp only [scopeOf, Prod.mk.injEq] at sameScope
      obtain ⟨sameRemote, sameNamespace, sameHome⟩ := sameScope
      exact undeleted ⟨rule, member, rfl, by rw [sameId], by rw [sameHome]; exact resolved, sameRemote.symm, sameNamespace.symm⟩

theorem workspaces_keep (faithful : serde.Faithful) :
    KeepsRules (workspaceMappingStore lib serde) (holdsWorkspaceRule serde) deletesWorkspaceRule := by
  intro call file document bytes key read performed there undeleted
  obtain ⟨arguments, other, changed, checked, again, changes, _, rfl⟩ := perform_loaded _ call file bytes performed
  rw [read] at again
  cases again
  obtain ⟨before, stored, rfl, parsed, inside⟩ := there
  have effective : key ∈ document.mappings.map mappingKey := by
    have decoded := (map_error_ok _ _ _).mp read
    simp only [workspaceMappingStore, decodeWorkspaces, bind_ok, pure_ok] at decoded
    obtain ⟨_, _, own, first, _, _, rfl⟩ := decoded
    rw [parsed] at first
    cases first
    exact deduplicate_keys stored.mappings key inside
  have kept := change_workspace_keeps lib call arguments document changed ((map_error_ok _ _ _).mp checked)
    ((map_error_ok _ _ _).mp changes) key effective undeleted
  exact ⟨_, changed.1, rfl, faithful changed.1, kept⟩

end SessionSync.Config
