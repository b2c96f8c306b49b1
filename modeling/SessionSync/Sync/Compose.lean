import SessionSync.Core.StagedSelection
import SessionSync.Storage.LocalRepository

set_option autoImplicit false

namespace SessionSync.Sync

open SessionSync.Core Checked Storage

section Workspace

-- What the path mapper makes of a path, if one of its mappings covers it.
variable (mapper : String → Option String)

def mapRowPath : Value → Value
  | .object row =>
      match (fieldOf row "cwd").bind Value.asStr with
      | none => .object row
      | some path =>
          match mapper path with
          | none => .object row
          | some mapped => .object (row.map fun field => if field.1 = "cwd" then (field.1, .string mapped) else field)
  | other => other

def mapThreadPaths (thread : ThreadBundle) : ThreadBundle :=
  { thread with
    workspace := { thread.workspace with sourcePath := thread.workspace.sourcePath.map fun path => (mapper path).getD path }
    relatedRecords :=
      { thread.relatedRecords with
        tables := thread.relatedRecords.tables.map fun table rows =>
          if table = "threads" then rows.map (mapRowPath mapper) else rows } }

def canonicalizeSnapshot (snapshot : LocalSnapshot) : LocalSnapshot :=
  { snapshot with threads := snapshot.threads.map (mapThreadPaths mapper) }

end Workspace

def projectWorkspaceIdentity (thread : ThreadBundle) : ThreadBundle :=
  { thread with workspace := { thread.workspace with logicalId := thread.workspace.logicalId.or thread.workspace.sourcePath } }

def projectWorkspaceIdentities (snapshot : LocalSnapshot) : LocalSnapshot :=
  { snapshot with threads := snapshot.threads.map projectWorkspaceIdentity }

mutual
def removeProviderFields : Value → Value
  | .object fields => .object (removeProviderEntries fields)
  | .array values => .array (removeProviderElements values)
  | .null => .null
  | .bool value => .bool value
  | .number value => .number value
  | .string text => .string text
def removeProviderElements : List Value → List Value
  | [] => []
  | value :: rest => removeProviderFields value :: removeProviderElements rest
def removeProviderEntries : Fields → Fields
  | [] => []
  | (key, value) :: rest =>
      if key = "model_provider" then removeProviderEntries rest else (key, removeProviderFields value) :: removeProviderEntries rest
end

-- set_thread_provider without a provider.
def clearThreadProvider (thread : ThreadBundle) : ThreadBundle :=
  { thread with
    modelProvider := none
    relatedRecords := { thread.relatedRecords with
      tables := thread.relatedRecords.tables.map fun _ rows => rows.map removeProviderFields } }

def canonicalizeSnapshotProviderMetadata (snapshot : LocalSnapshot) : LocalSnapshot :=
  { snapshot with threads := snapshot.threads.map clearThreadProvider }

def threadStateLoop (lib : Primitives) : List ThreadBundle → Std.ExtTreeMap String String →
    Except String (Std.ExtTreeMap String String)
  | [], state => .ok state
  | thread :: rest, state => do
      ensure (state.contains thread.threadId = false) ("duplicate thread ID " ++ thread.threadId)
      threadStateLoop lib rest (state.insert thread.threadId (semanticThreadHash lib (remoteThreadView thread)))

def threadStatesEqual (lib : Primitives) (left right : List ThreadBundle) : Except String Bool := do
  let left ← threadStateLoop lib left ∅
  let right ← threadStateLoop lib right ∅
  return decide (left.toList = right.toList)

def validateRevisionRootNamespace (revision : RevisionRootV4) (namespaceId : Uuid) : Except String Unit := do
  revision.validate
  ensure (revision.namespaceId = namespaceId) "server returned a revision for the wrong namespace"

variable (lib : Primitives)

def storeRevisionRoot (files : Files) (root : RevisionRootV4) : Except String (StorageObjectRefV4 × Files) := do
  root.validate
  storeJson lib files .revisionRoot root.toValue

def snapshotToRevisionRootV4 (files : Files) (snapshot : LocalSnapshot) (namespaceId : Uuid) (parentRevision : Option String)
    (contents : Contents) : Except String (RevisionRootV4 × Files) := do
  let (references, files) ← storeThreads lib contents snapshot.threads files
  let root : RevisionRootV4 :=
    { schemaVersion := 4, normalizationSchemaVersion := 1, namespaceId := namespaceId, parentRevision := parentRevision,
      createdAt := snapshot.createdAt, threads := references.insertionSort fun a b => a.threadId ≤ b.threadId,
      warningCount := snapshot.warningCount }
  let (_, files) ← storeRevisionRoot lib files root
  return (root, files)

-- The loop of compose_staged_thread_refs over the selected ids.
def composeRefs (plan : ChangePlan) (selected : Std.ExtTreeMap String ThreadRefV4) :
    List String → Std.ExtTreeMap String ThreadRefV4 → Except String (Std.ExtTreeMap String ThreadRefV4)
  | [], result => .ok result
  | id :: rest, result => do
      let candidate ← found (plan.candidate id) ("staged thread is not in the change plan: " ++ id)
      match candidate.kind with
      | .deleted => do
          ensure (selected.contains id = false) ("a deleted thread must not have a staged descriptor: " ++ id)
          composeRefs plan selected rest (result.erase id)
      | .added | .modified | .archiveChanged => do
          let reference ← found selected[id]? ("staged descriptor is missing: " ++ id)
          composeRefs plan selected rest (result.insert id reference)
      | .unchanged => .error ("unchanged thread cannot be staged: " ++ id)

def collectRefs : List ThreadRefV4 → Std.ExtTreeMap String ThreadRefV4 → Except String (Std.ExtTreeMap String ThreadRefV4)
  | [], result => .ok result
  | reference :: rest, result => do
      ensure (result.contains reference.threadId = false) ("remote contains duplicate thread ID " ++ reference.threadId)
      collectRefs rest (result.insert reference.threadId reference)

def composeStagedThreadRefs (remote : List ThreadRefV4) (plan : ChangePlan) (staged : StagedChangeSet)
    (selectedRefs : List ThreadRefV4) :
    Except String (List ThreadRefV4) := do
  ensure (staged.baseRevisionId = plan.baseRevisionId) "staged change set was created from a different baseline"
  let result ← collectRefs remote ∅
  let selected := selectedRefs.foldl (fun map reference => map.insert reference.threadId reference) ∅
  let result ← composeRefs plan selected staged.selectedThreadIds.toList result
  return Keyed.values result

end SessionSync.Sync
