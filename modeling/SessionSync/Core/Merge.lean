import SessionSync.Core.ThreadView
import SessionSync.Lib.Keyed

set_option autoImplicit false

namespace SessionSync.Core

inductive ThreadConflictKind where
  | bothModified
  | localDeletedRemoteModified
  | remoteDeletedLocalModified
deriving DecidableEq, Repr

structure ThreadConflictVersion where
  title : String
  archived : Bool
  updatedAtMs : Option Int64
  modelProvider : Option String
  workspaceSourcePath : Option String
  semanticHash : String
deriving DecidableEq, Repr

structure ThreadConflict where
  conflictId : String
  threadId : String
  title : String
  kind : ThreadConflictKind
  baseVersion : Option ThreadConflictVersion
  localVersion : Option ThreadConflictVersion
  remoteVersion : Option ThreadConflictVersion
deriving DecidableEq, Repr

structure ThreadMergeOutcome where
  threads : List ThreadBundle
  conflicts : List ThreadConflict

def ThreadConflictKind.name : ThreadConflictKind → String
  | .bothModified => "both_modified"
  | .localDeletedRemoteModified => "local_deleted_remote_modified"
  | .remoteDeletedLocalModified => "remote_deleted_local_modified"

def threadMap (threads : List ThreadBundle) : Except String (Std.ExtTreeMap String ThreadBundle) :=
  Keyed.collect ThreadBundle.threadId (fun _ => .ok ()) (fun thread => "duplicate thread ID " ++ thread.threadId) threads ∅

def conflictVersion (lib : Primitives) (thread : ThreadBundle) : ThreadConflictVersion where
  title := thread.title
  archived := thread.archived
  updatedAtMs := thread.updatedAtMs
  modelProvider := thread.modelProvider
  workspaceSourcePath := thread.workspace.sourcePath
  semanticHash := semanticThreadHash lib thread

def conflictFingerprint (lib : Primitives) (threadId : String) (kind : ThreadConflictKind)
    (base loc remote : Option ThreadConflictVersion) : String :=
  let hash := fun version : Option ThreadConflictVersion => Value.option .string (version.map (·.semanticHash))
  digestBytes lib (toVec lib (.array [.string threadId, .string kind.name, hash base, hash loc, hash remote]))

def conflictKind : Option ThreadBundle → Option ThreadBundle → ThreadConflictKind
  | none, some _ => .localDeletedRemoteModified
  | some _, none => .remoteDeletedLocalModified
  | _, _ => .bothModified

def threadConflict (lib : Primitives) (id : String) (base loc remote : Option ThreadBundle) : ThreadConflict :=
  let kind := conflictKind loc remote
  let baseVersion := base.map (conflictVersion lib)
  let localVersion := loc.map (conflictVersion lib)
  let remoteVersion := remote.map (conflictVersion lib)
  { conflictId := conflictFingerprint lib id kind baseVersion localVersion remoteVersion
    threadId := id
    title := (((loc.or remote).or base).map (·.title)).getD id
    kind := kind
    baseVersion := baseVersion
    localVersion := localVersion
    remoteVersion := remoteVersion }

-- What one pass of the loop pushes: a kept version, or the conflict.
inductive MergeChoice where
  | keep (version : Option ThreadBundle)
  | disagree (conflict : ThreadConflict)

def MergeChoice.thread : MergeChoice → Option ThreadBundle
  | .keep version => version
  | .disagree _ => none

def MergeChoice.conflict? : MergeChoice → Option ThreadConflict
  | .keep _ => none
  | .disagree conflict => some conflict

def mergeThread (lib : Primitives) (id : String) (base loc remote : Option ThreadBundle) : MergeChoice :=
  let localChanged := !semanticOptionEq lib loc base
  let remoteChanged := !semanticOptionEq lib remote base
  match localChanged, remoteChanged with
  | false, false => .keep (loc.or remote)
  | true, false => .keep loc
  | false, true => .keep remote
  | true, true =>
      if semanticOptionEq lib loc remote then .keep loc else .disagree (threadConflict lib id base loc remote)

def mergeLoop (choice : String → MergeChoice) : List String → ThreadMergeOutcome → ThreadMergeOutcome
  | [], outcome => outcome
  | id :: rest, outcome =>
      mergeLoop choice rest
        { threads := outcome.threads ++ (choice id).thread.toList
          conflicts := outcome.conflicts ++ (choice id).conflict?.toList }

def unionIds (base loc remote : Std.ExtTreeMap String ThreadBundle) : List String :=
  Keyed.sortedKeys (base.keys ++ loc.keys ++ remote.keys)

def mergeMaps (lib : Primitives) (base loc remote : Std.ExtTreeMap String ThreadBundle) : ThreadMergeOutcome :=
  let outcome := mergeLoop (fun id => mergeThread lib id base[id]? loc[id]? remote[id]?) (unionIds base loc remote) ⟨[], []⟩
  { outcome with threads := outcome.threads.insertionSort fun a b => a.threadId ≤ b.threadId }

def mergeThreadSets (lib : Primitives) (base loc remote : List ThreadBundle) : Except String ThreadMergeOutcome := do
  let base ← threadMap base
  let loc ← threadMap loc
  let remote ← threadMap remote
  return mergeMaps lib base loc remote

end SessionSync.Core
