import SessionSync.Storage.Descriptor
import SessionSync.Storage.Repository

set_option autoImplicit false

namespace SessionSync.Storage

open SessionSync.Core Checked

abbrev Contents := Std.ExtTreeMap String ContentRefV4

section Write

variable (lib : Primitives)

def storeDescriptor (files : Files) (bundle : ThreadBundle) (rollout : ContentRefV4) : Except String (ThreadRefV4 × Files) := do
  let descriptor ← SemanticThreadDescriptorV4.fromBundle bundle rollout
  descriptor.validate
  let (object, files) ← storeJson lib files .thread descriptor.toValue
  return (⟨bundle.threadId, object.sha256⟩, files)

def storeOverlay (files : Files) (overlay : SnapshotOverlayV4) : Except String (StorageObjectRefV4 × Files) := do
  overlay.validate
  storeJson lib files .snapshotOverlay overlay.toValue

def overlayOf (thread : ThreadBundle) : LocalThreadOverlayV4 :=
  { observedProvider := thread.modelProvider
    localWorkspacePath := thread.workspace.sourcePath
    localRolloutPath := thread.rollout.logicalPath
    sourceDatabaseHints := thread.relatedRecords.sourceDatabase.toList
    localFields := ∅ }

-- The loop over the threads of a snapshot: one descriptor and one overlay each.
def storeThreads (contents : Contents) :
    List ThreadBundle → Files → Except String (List ThreadRefV4 × Files)
  | [], files => .ok ([], files)
  | thread :: rest, files => do
      let content ← found contents[thread.threadId]? ("missing v4 content for thread " ++ thread.threadId)
      let (reference, files) ← storeDescriptor lib files thread content
      let (references, files) ← storeThreads contents rest files
      return (reference :: references, files)

def overlaysOf : List ThreadBundle → Std.ExtTreeMap String LocalThreadOverlayV4 → Std.ExtTreeMap String LocalThreadOverlayV4
  | [], overlays => overlays
  | thread :: rest, overlays => overlaysOf rest (overlays.insert thread.threadId (overlayOf thread))

def SnapshotOverlayV4.new (threads : Std.ExtTreeMap String LocalThreadOverlayV4) : SnapshotOverlayV4 :=
  { schemaVersion := 4, normalizationSchemaVersion := 1, threads := threads }

def buildV4SnapshotRoot (files : Files) (snapshot : LocalSnapshot) (contents : Contents) :
    Except String (SnapshotRootV4 × Files) := do
  let (references, files) ← storeThreads lib contents snapshot.threads files
  let (overlay, files) ← storeOverlay lib files (.new (overlaysOf snapshot.threads ∅))
  let root : SnapshotRootV4 :=
    { schemaVersion := 4
      normalizationSchemaVersion := 1
      snapshotId := snapshot.snapshotId
      createdAt := snapshot.createdAt
      threads := references.insertionSort fun a b => a.threadId ≤ b.threadId
      overlaySha256 := overlay.sha256
      warningCount := snapshot.warningCount }
  root.validate
  return (root, files)

-- The bytes that snapshots/<id>.json is given, and the store they rest on.
def writeV4Snapshot (files : Files) (snapshot : LocalSnapshot) (contents : Contents) : Except String (Bytes × Files) := do
  let (root, files) ← buildV4SnapshotRoot lib files snapshot contents
  return (canonicalJson lib root.toValue, files)

end Write

section Load

variable (lib : Primitives) (serde : Decoders)

def loadDescriptor (files : Files) (reference : ThreadRefV4) : Except String SemanticThreadDescriptorV4 := do
  validateSha256V4 reference.descriptorSha256
  let descriptor ← readJson lib serde.descriptor files .thread reference.descriptorSha256
  descriptor.validate
  ensure (descriptor.threadId = reference.threadId) "v4 thread reference ID does not match descriptor"
  return descriptor

def loadOverlay (files : Files) (sha256 : String) : Except String SnapshotOverlayV4 := do
  let overlay ← readJson lib serde.overlay files .snapshotOverlay sha256
  overlay.validate
  return overlay

def maxRootBytes : UInt64 := 16 * 1024 * 1024

def readBoundedV4 {α : Type} (decode : Bytes → Except String α) (bytes : Bytes) : Except String α := do
  ensure (fileLength bytes ≤ maxRootBytes) "object exceeds size limit"
  decode bytes

def loadThreads (files : Files) (overlay : SnapshotOverlayV4) :
    List ThreadRefV4 → Contents → Except String (List ThreadBundle × Contents)
  | [], contents => .ok ([], contents)
  | reference :: rest, contents => do
      let descriptor ← loadDescriptor lib serde files reference
      ensure ((contents[reference.threadId]?.all fun previous => previous.logicalSha256 = descriptor.rollout.logicalSha256) = true)
        "v4 snapshot contains conflicting content references"
      let (threads, contents) ← loadThreads files overlay rest (contents.insert reference.threadId descriptor.rollout)
      return (descriptor.intoBundle overlay.threads[reference.threadId]? :: threads, contents)

def loadV4Snapshot (files : Files) (manifest : Bytes) : Except String (LocalSnapshot × Contents) := do
  let root ← readBoundedV4 serde.snapshotRoot manifest
  root.validate
  let overlay ← loadOverlay lib serde files root.overlaySha256
  let (threads, contents) ← loadThreads lib serde files overlay root.threads ∅
  return ({ schemaVersion := localSnapshotSchemaVersion
            snapshotId := root.snapshotId
            createdAt := root.createdAt
            threads := threads
            warningCount := root.warningCount }, contents)

end Load

end SessionSync.Storage
