import SessionSync.Storage.Content
import SessionSync.Storage.LocalRepository
import Mathlib.Data.List.Destutter

set_option autoImplicit false

namespace SessionSync.Treasure

open SessionSync.Core Checked Storage

structure CandidateContent where
  sourceSnapshotId : String
  semanticHash : String
  thread : ThreadBundle
  content : ContentRefV4

abbrev Groups := Std.ExtTreeMap String (List CandidateContent)

def Groups.file (groups : Groups) (candidate : CandidateContent) : Groups :=
  groups.insert candidate.thread.threadId (groups[candidate.thread.threadId]?.getD [] ++ [candidate])

section Load

variable (codec : LocalCodec) (repository : LocalRepository)

def fileThreads (snapshotId : String) (contents : Contents) : List ThreadBundle → Groups → Except String Groups
  | [], groups => .ok groups
  | thread :: rest, groups => do
      let content ← found contents[thread.threadId]? "snapshot thread content missing"
      validateContent codec.lib codec.serde repository.files content
      let candidate : CandidateContent :=
        { sourceSnapshotId := snapshotId
          semanticHash := semanticThreadHash codec.lib thread
          thread := thread
          content := content }
      fileThreads snapshotId contents rest (groups.file candidate)

def loadSources (snapshots : Std.ExtTreeMap String LocalSnapshotListItem) : List String → Groups → Except String Groups
  | [], groups => .ok groups
  | id :: rest, groups => do
      let item ← found snapshots[id]? ("source snapshot no longer exists: " ++ id)
      let (snapshot, contents) ← loadSnapshot codec repository item.manifest
      let groups ← fileThreads codec repository id contents snapshot.threads groups
      loadSources snapshots rest groups

def snapshotItems : Except String (Std.ExtTreeMap String LocalSnapshotListItem) := do
  let items ← listLocalSnapshots codec repository
  return Keyed.index LocalSnapshotListItem.snapshotId (fun item => item) items

def loadCandidates (sourceSnapshotIds : List String) : Except String Groups := do
  let ids := Keyed.sortedKeys sourceSnapshotIds
  ensure (ids ≠ []) "add at least one snapshot to the treasure preview"
  ensure (ids.length = sourceSnapshotIds.length) "treasure preview contains duplicate snapshot IDs"
  let snapshots ← snapshotItems codec repository
  loadSources codec repository snapshots ids ∅

end Load

structure TreasureCandidate where
  sourceSnapshotId : String
  semanticHash : String
  title : String
  updatedAtMs : Option Int64
deriving DecidableEq, Repr

structure TreasureConflict where
  threadId : String
  candidates : List TreasureCandidate
deriving DecidableEq, Repr

structure TreasurePreview where
  sourceSnapshotIds : List String
  threadCount : Nat
  conflictCount : Nat
  conflicts : List TreasureConflict
  fingerprint : String
deriving DecidableEq, Repr

structure TreasureResolution where
  threadId : String
  semanticHash : String
deriving DecidableEq, Repr

def CandidateContent.summary (candidate : CandidateContent) : TreasureCandidate :=
  { sourceSnapshotId := candidate.sourceSnapshotId
    semanticHash := candidate.semanticHash
    title := candidate.thread.title
    updatedAtMs := candidate.thread.updatedAtMs }

def versionBefore (left right : TreasureCandidate) : Prop :=
  left.semanticHash < right.semanticHash ∨ left.semanticHash = right.semanticHash ∧ left.sourceSnapshotId ≤ right.sourceSnapshotId

instance versionDecidable : DecidableRel versionBefore := fun left right =>
  inferInstanceAs (Decidable (left.semanticHash < right.semanticHash ∨
    left.semanticHash = right.semanticHash ∧ left.sourceSnapshotId ≤ right.sourceSnapshotId))

-- Sorted by hash and then by snapshot, and of equal hashes the first.
def versionsOf (candidates : List CandidateContent) : List TreasureCandidate :=
  ((candidates.map CandidateContent.summary).insertionSort versionBefore).destutter fun left right =>
    left.semanticHash ≠ right.semanticHash

def hashesOf (candidates : List CandidateContent) : List String := Keyed.sortedKeys (candidates.map CandidateContent.semanticHash)

def conflictOf (group : String × List CandidateContent) : Option TreasureConflict :=
  if 1 < (hashesOf group.2).length then some { threadId := group.1, candidates := versionsOf group.2 } else none

def stableValue (group : String × List CandidateContent) : Value :=
  .array [.string group.1,
    .array (group.2.map fun candidate => .array [.string candidate.sourceSnapshotId, .string candidate.semanticHash])]

def previewFromCandidates (lib : Primitives) (sourceSnapshotIds : List String) (groups : Groups) : TreasurePreview :=
  let conflicts := groups.toList.filterMap conflictOf
  { sourceSnapshotIds := sourceSnapshotIds
    threadCount := groups.size
    conflictCount := conflicts.length
    conflicts := conflicts
    fingerprint := digestBytes lib (canonicalJson lib
      (.array [.array (sourceSnapshotIds.map .string), .array (groups.toList.map stableValue)])) }

-- The first candidate with the selected hash, or with the least one where nothing was selected.
def chooseGroup (selected : Std.ExtTreeMap String String) (group : String × List CandidateContent) :
    Except String CandidateContent := do
  let wanted ← found (selected[group.1]?.or (hashesOf group.2).head?) "candidate group is nonempty"
  found (group.2.find? fun candidate => candidate.semanticHash = wanted) "selected treasure version no longer exists"

def selectedOf (resolutions : List TreasureResolution) : Std.ExtTreeMap String String :=
  Keyed.index TreasureResolution.threadId TreasureResolution.semanticHash resolutions

def chooseCandidates (groups : Groups) (preview : TreasurePreview) (resolutions : List TreasureResolution) :
    Except String (List CandidateContent) := do
  let selected := selectedOf resolutions
  ensure (selected.size = resolutions.length) "treasure conflict choices contain duplicate thread IDs"
  let conflicts := Keyed.sortedKeys (preview.conflicts.map TreasureConflict.threadId)
  ensure (∀ id ∈ selected.keys, id ∈ conflicts) "treasure conflict choice does not match current preview"
  ensure (selected.size = conflicts.length) "choose a version for every conflicting conversation before exporting"
  groups.toList.mapM (chooseGroup selected)

end SessionSync.Treasure
