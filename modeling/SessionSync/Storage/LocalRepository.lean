import SessionSync.Storage.Snapshots
import Mathlib.Data.List.Sort

set_option autoImplicit false

namespace SessionSync.Storage

open SessionSync.Core Checked

inductive SnapshotScope where
  | full
  | selection
deriving DecidableEq, Repr

structure SnapshotMetadata where
  description : String
  tags : List String
  pinned : Bool
  automatic : Bool
  scope : SnapshotScope
  baseRevisionId : Option String
  selectedThreadIds : List String
  deletedThreadIds : List String
deriving DecidableEq, Repr

def SnapshotMetadata.default : SnapshotMetadata :=
  { description := "", tags := [], pinned := false, automatic := false, scope := .full, baseRevisionId := none,
    selectedThreadIds := [], deletedThreadIds := [] }

def SnapshotScope.wireName : SnapshotScope → String
  | .full => "full"
  | .selection => "selection"

-- A base revision that is not there is skipped.
def SnapshotMetadata.toValue (metadata : SnapshotMetadata) : Value :=
  .object ([("description", .string metadata.description), ("tags", .array (metadata.tags.map .string)),
    ("pinned", .bool metadata.pinned), ("automatic", .bool metadata.automatic), ("scope", .string metadata.scope.wireName)] ++
    (metadata.baseRevisionId.toList.map fun revision => ("baseRevisionId", .string revision)) ++
    [("selectedThreadIds", .array (metadata.selectedThreadIds.map .string)),
      ("deletedThreadIds", .array (metadata.deletedThreadIds.map .string))])

-- objects/, snapshots/<name>.json and metadata/snapshots/<id>.json.
structure LocalRepository where
  files : Files
  snapshots : Std.ExtTreeMap String Bytes
  metadata : Std.ExtTreeMap String Bytes

structure LocalSnapshotListItem where
  snapshotId : String
  createdAt : String
  manifest : String
  threadCount : Nat
  objectCount : Nat
  logicalBytes : UInt64
  physicalReferencedBytes : UInt64
  warningCount : UInt64
  metadata : SnapshotMetadata
deriving DecidableEq, Repr

structure LocalCodec where
  lib : Primitives
  serde : Decoders
  metadata : Bytes → Except String SnapshotMetadata
  -- Uuid::parse_str.
  parseUuid : String → Option Uuid

variable (codec : LocalCodec)

def contentObjects (files : Files) (content : ContentRefV4) : Except String (List StorageObjectRefV4) := do
  validateContentRefV4 content
  match content.storage with
  | .whole object => return [⟨.whole, object, content.byteLength⟩]
  | .chunked name => do
      let manifest ← readJson codec.lib codec.serde.manifest files .chunkManifest name
      manifest.validate
      ensure (manifest.logicalSha256 = content.logicalSha256 ∧
        manifest.byteLength = content.byteLength) "v4 chunk manifest identity mismatch"
      return ⟨.chunkManifest, name, fileLength (canonicalJson codec.lib manifest.toValue)⟩ ::
        manifest.chunks.map fun chunk => ⟨.chunk, chunk.sha256, chunk.byteLength⟩

def contentsObjects (files : Files) : List ContentRefV4 → Except String (List StorageObjectRefV4)
  | [] => .ok []
  | content :: rest => do
      let objects ← contentObjects codec files content
      let others ← contentsObjects files rest
      return objects ++ others

def checkedTotal (reason : String) : List UInt64 → UInt64 → Except String UInt64
  | [], total => .ok total
  | length :: rest, total => do
      ensure (total.toNat + length.toNat < 2 ^ 64) reason
      checkedTotal reason rest (total + length)

-- The objects below the threads of a snapshot and the length of each rollout.
def listThreads (files : Files) : List ThreadRefV4 → Except String (List StorageObjectRefV4 × List UInt64)
  | [] => .ok ([], [])
  | reference :: rest => do
      let descriptor ← loadDescriptor codec.lib codec.serde files reference
      let bytes ← objectFile files .thread reference.descriptorSha256
      let objects ← contentsObjects codec files descriptor.contents
      let (others, lengths) ← listThreads files rest
      return (⟨.thread, reference.descriptorSha256, fileLength bytes⟩ :: objects ++ others, descriptor.rollout.byteLength :: lengths)

def snapshotMetadata (repository : LocalRepository) (snapshotId : String) : Except String SnapshotMetadata :=
  match repository.metadata[snapshotId]? with
  | some bytes => codec.metadata bytes
  | none => .ok .default

def listItem (repository : LocalRepository) (manifest : String × Bytes) : Except String LocalSnapshotListItem := do
  let root ← codec.serde.snapshotRoot manifest.2
  root.validate
  let (objects, lengths) ← listThreads codec repository.files root.threads
  let objects := objects.dedup
  let logicalBytes ← checkedTotal "snapshot logical byte count overflow" lengths 0
  let overlay ← objectFile repository.files .snapshotOverlay root.overlaySha256
  let physicalReferencedBytes ← checkedTotal "snapshot physical byte count overflow" (objects.map StorageObjectRefV4.byteLength)
    (fileLength overlay)
  let metadata ← snapshotMetadata codec repository root.snapshotId
  return { snapshotId := root.snapshotId, createdAt := root.createdAt, manifest := manifest.1, threadCount := root.threads.length,
           objectCount := objects.length + 1, logicalBytes := logicalBytes, physicalReferencedBytes := physicalReferencedBytes,
           warningCount := root.warningCount, metadata := metadata }

-- The newest first, and of equally old ones the greater id.
def newerThan (left right : LocalSnapshotListItem) : Prop :=
  right.createdAt < left.createdAt ∨ left.createdAt = right.createdAt ∧ right.snapshotId ≤ left.snapshotId

instance newerDecidable : DecidableRel newerThan := fun left right =>
  inferInstanceAs (Decidable (right.createdAt < left.createdAt ∨ left.createdAt = right.createdAt ∧
    right.snapshotId ≤ left.snapshotId))

def listItems (repository : LocalRepository) : List (String × Bytes) → Except String (List LocalSnapshotListItem)
  | [] => .ok []
  | manifest :: rest => do
      let item ← listItem codec repository manifest
      let items ← listItems repository rest
      return item :: items

def listLocalSnapshots (repository : LocalRepository) : Except String (List LocalSnapshotListItem) := do
  let items ← listItems codec repository repository.snapshots.toList
  return items.insertionSort newerThan

-- write_v4_root below snapshots/.
def LocalRepository.writeRoot (repository : LocalRepository) (name : String) (root : SnapshotRootV4) : LocalRepository :=
  { repository with snapshots := repository.snapshots.insert name (canonicalJson codec.lib root.toValue) }

def loadSnapshot (repository : LocalRepository) (name : String) : Except String (LocalSnapshot × Contents) := do
  let bytes ← found repository.snapshots[name]? "No such file or directory"
  loadV4Snapshot codec.lib codec.serde repository.files bytes

def storeSnapshot (repository : LocalRepository) (snapshot : LocalSnapshot) (contents : Contents) :
    Except String LocalRepository := do
  let (root, files) ← buildV4SnapshotRoot codec.lib repository.files snapshot contents
  return LocalRepository.writeRoot codec { repository with files := files } snapshot.snapshotId root

def trimText (text : String) : List Char := ((text.toList.dropWhile isWhitespace).reverse.dropWhile isWhitespace).reverse

def SnapshotMetadata.normalize (metadata : SnapshotMetadata) : SnapshotMetadata :=
  let tags := metadata.tags.map fun tag => String.ofList ((trimText tag).take 64)
  { metadata with
    description := String.ofList ((trimText metadata.description).take 500)
    tags := ((Keyed.sortedKeys (tags.filter fun tag => tag ≠ "")).take 32) }

def updateSnapshotMetadata (repository : LocalRepository) (snapshotId : String) (metadata : SnapshotMetadata) :
    Except String (LocalRepository × SnapshotMetadata) := do
  let _ ← found (codec.parseUuid snapshotId) "invalid snapshot ID"
  ensure (repository.snapshots.contains snapshotId = true) ("snapshot not found: " ++ snapshotId)
  let metadata := metadata.normalize
  return ({ repository with metadata := repository.metadata.insert snapshotId (canonicalJson codec.lib metadata.toValue) }, metadata)

end SessionSync.Storage
