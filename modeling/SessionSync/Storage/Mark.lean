import SessionSync.Storage.LocalRepository

set_option autoImplicit false

namespace SessionSync.Storage

open SessionSync.Core Checked

-- trash/snapshots/<operation>/<file>.
abbrev TrashDirectory := Std.ExtTreeMap String Bytes

structure SnapshotTrashEntry where
  operationId : String
  snapshotId : String
  trashedAt : String
  originalManifestPath : String
  trashManifestPath : String
deriving DecidableEq, Repr

structure MarkCodec extends LocalCodec where
  trashEntry : Bytes → Except String SnapshotTrashEntry

structure MarkedRepository where
  files : Files
  snapshots : Std.ExtTreeMap String Bytes
  trash : Std.ExtTreeMap String TrashDirectory

variable (codec : MarkCodec)

def graphThreads (files : Files) : List ThreadRefV4 → Except String (List StorageObjectRefV4)
  | [] => .ok []
  | reference :: rest => do
      let descriptor ← readJson codec.lib codec.serde.descriptor files .thread reference.descriptorSha256
      descriptor.validate
      let bytes ← objectFile files .thread reference.descriptorSha256
      let objects ← contentsObjects codec.toLocalCodec files descriptor.contents
      let others ← graphThreads files rest
      return ⟨.thread, reference.descriptorSha256, fileLength bytes⟩ :: objects ++ others

def collectSnapshotGraphObjects (files : Files) (root : SnapshotRootV4) : Except String (List StorageObjectRefV4) := do
  root.validate
  let overlay ← objectFile files .snapshotOverlay root.overlaySha256
  let threads ← graphThreads codec files root.threads
  return ⟨.snapshotOverlay, root.overlaySha256, fileLength overlay⟩ :: threads

def collectRevisionGraphObjects (files : Files) (revisionId : String) : Except String (List StorageObjectRefV4) := do
  let root ← readJson codec.lib codec.serde.revisionRoot files .revisionRoot revisionId
  root.validate
  let bytes ← objectFile files .revisionRoot revisionId
  let threads ← graphThreads codec files root.threads
  return ⟨.revisionRoot, revisionId, fileLength bytes⟩ :: threads

def collectSnapshot (files : Files) (manifest : String × Bytes) : Except String (List StorageObjectRefV4) := do
  let root ← readBoundedV4 codec.serde.snapshotRoot manifest.2
  collectSnapshotGraphObjects codec files root

def loadTrashRoot (entry : String × TrashDirectory) : Except String (String × SnapshotRootV4) := do
  let _ ← found (codec.parseUuid entry.1) "invalid local trash operation ID"
  let stored ← found entry.2["entry.json"]? "No such file or directory"
  let trashEntry ← readBoundedV4 codec.trashEntry stored
  ensure (trashEntry.operationId = entry.1) "local trash entry operation ID mismatch"
  let manifest ← found entry.2["snapshot.json"]? "No such file or directory"
  let root ← readBoundedV4 codec.serde.snapshotRoot manifest
  root.validate
  ensure (root.snapshotId = trashEntry.snapshotId) "local trash snapshot ID mismatch"
  return (entry.1, root)

def loadLocalTrashRoots (repository : MarkedRepository) : Except String (List (String × SnapshotRootV4)) :=
  repository.trash.toList.mapM (loadTrashRoot codec)

def revisionRoots (files : Files) : List String :=
  (files.toList.filter fun file => file.1.1 = .revisionRoot).map fun file => file.1.2

-- The objects that some snapshot, some entry of the trash that is not excluded or some
-- revision root reaches, each as often as it is reached.
def collectReachableObjects (repository : MarkedRepository) (excluded : List String) : Except String (List StorageObjectRefV4) := do
  let snapshots ← repository.snapshots.toList.mapM (collectSnapshot codec repository.files)
  let roots ← loadLocalTrashRoots codec repository
  let trash ← (roots.filter fun root => root.1 ∉ excluded).mapM fun root => collectSnapshotGraphObjects codec repository.files root.2
  let revisions ← (revisionRoots repository.files).mapM (collectRevisionGraphObjects codec repository.files)
  return snapshots.flatten ++ trash.flatten ++ revisions.flatten

def fileRef (file : ObjectName × Bytes) : StorageObjectRefV4 := ⟨file.1.1, file.1.2, fileLength file.2⟩

def enumerateOne (file : ObjectName × Bytes) : Except String StorageObjectRefV4 := do
  validateSha256V4 file.1.2
  return fileRef file

def enumerateRepositoryObjects (files : Files) (kinds : List StorageObjectKindV4) : Except String (List StorageObjectRefV4) :=
  (files.toList.filter fun file => file.1.1 ∈ kinds).mapM enumerateOne

end SessionSync.Storage
