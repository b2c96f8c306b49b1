import SessionSync.Storage.LocalRepository
import SessionSync.Rollout.SessionMeta
import SessionSync.Core.Sha256
import Mathlib.Algebra.BigOperators.Group.List.Basic

set_option autoImplicit false

namespace SessionSync.Storage

open SessionSync.Core Checked Rollout

structure SnapshotDeletionPlan where
  snapshotId : String
  manifest : String
  pinned : Bool
  protectedByOperations : List String
  sharedObjectCount : Nat
  exclusiveObjectCount : Nat
  estimatedReclaimableBytes : UInt64
  planFingerprint : String
deriving DecidableEq, Repr

-- The repository beside journal/<name> and trash/snapshots/<operation>.
structure DeletionRepository where
  repository : LocalRepository
  journal : Std.ExtTreeMap String Bytes
  trash : Std.ExtTreeMap String (Bytes × Option Bytes)

structure DeletionCodec extends LocalCodec where
  parse : Bytes → Except String Value

variable (codec : DeletionCodec)

def planSnapshotDeletionV4 (state : DeletionRepository) (snapshotId : String) : Except String SnapshotDeletionPlan := do
  ensure (state.repository.snapshots.contains snapshotId = true) ("snapshot not found: " ++ snapshotId)
  let snapshots ← listLocalSnapshots codec.toLocalCodec state.repository
  let target ← found (snapshots.find? fun item => item.snapshotId = snapshotId) "snapshot not found"
  let protectedByOperations := []
  let fingerprint := digestBytes codec.lib (canonicalJson codec.lib
    (.array [.string snapshotId, .nat target.physicalReferencedBytes, .array (protectedByOperations.map .string)]))
  return { snapshotId := snapshotId, manifest := snapshotId, pinned := target.metadata.pinned,
           protectedByOperations := protectedByOperations,
           sharedObjectCount := 0, exclusiveObjectCount := target.objectCount,
           estimatedReclaimableBytes := target.physicalReferencedBytes, planFingerprint := fingerprint }

def checkTrash (state : DeletionRepository) (expected : SnapshotDeletionPlan) : Except String (String × Bytes) := do
  let current ← planSnapshotDeletionV4 codec state expected.snapshotId
  ensure (current = expected) "snapshot deletion plan became stale"
  ensure (current.pinned = false) "pinned snapshots cannot be moved to trash"
  ensure (current.protectedByOperations = []) "snapshot is protected by a non-terminal operation journal"
  let manifest ← found state.repository.snapshots[current.snapshotId]? "No such file or directory"
  return (current.snapshotId, manifest)

-- The id is looked at once the manifest has gone, for the path of the metadata.
def trashLocalSnapshot (operation : String) (state : DeletionRepository) (expected : SnapshotDeletionPlan) :
    Except String Unit × DeletionRepository :=
  match checkTrash codec state expected with
  | .error error => (.error error, state)
  | .ok (snapshotId, manifest) =>
      let moved := { state with
        repository := { state.repository with snapshots := state.repository.snapshots.erase snapshotId }
        trash := state.trash.insert operation (manifest, none) }
      match codec.parseUuid snapshotId with
      | none => (.error "invalid snapshot ID", moved)
      | some _ => (.ok (), { moved with
          repository := { moved.repository with metadata := state.repository.metadata.erase snapshotId }
          trash := state.trash.insert operation (manifest, state.repository.metadata[snapshotId]?) })

section Journals

-- Path::extension of a name that is not the extension alone.
def isJson (name : String) : Bool := ".json".toList.isSuffixOf name.toList && 5 < name.toList.length

def lowercase (status : String) : String := String.ofList (status.toList.map Char.toLower)

def terminal (status : String) : Bool := ["completed", "rolled_back", "rolledback"].contains (lowercase status)

-- The operation of a journal that references the snapshot and has not ended.
def protectingOperation (snapshotId name : String) (bytes : Bytes) : Except String (Option String) :=
  if isJson name = false ∨ maxRootBytes < fileLength bytes then .ok none
  else do
    let value ← codec.parse bytes
    match asObject value with
    | none => return none
    | some fields =>
        if (fieldOf fields "snapshotId").bind Value.asStr ≠ some snapshotId then return none
        else if terminal (((fieldOf fields "status").bind Value.asStr).getD "unknown") then return none
        else return some (((fieldOf fields "operationId").bind Value.asStr).getD ("journal/" ++ name))

def ProtectedBy (state : DeletionRepository) (snapshotId operation : String) : Prop :=
  ∃ name bytes, state.journal[name]? = some bytes ∧ protectingOperation codec snapshotId name bytes = .ok (some operation)

end Journals

section Objects

def snapshotObjects (repository : LocalRepository) (root : SnapshotRootV4) : Except String (List StorageObjectRefV4) := do
  let (objects, _) ← listThreads codec.toLocalCodec repository.files root.threads
  let overlay ← objectFile repository.files .snapshotOverlay root.overlaySha256
  return ⟨.snapshotOverlay, root.overlaySha256, fileLength overlay⟩ :: objects.dedup

-- What the manifests of other snapshots reference.
def otherObjects (repository : LocalRepository) (snapshotId : String) : List StorageObjectRefV4 :=
  repository.snapshots.toList.flatMap fun manifest =>
    match codec.serde.snapshotRoot manifest.2 with
    | .ok root => if root.snapshotId = snapshotId then [] else (snapshotObjects codec repository root).toOption.getD []
    | .error _ => []

def totalBytes (objects : List StorageObjectRefV4) : Nat := (objects.map fun object => object.byteLength.toNat).sum

theorem checked_total (reason : String) (lengths : List UInt64) (total result : UInt64)
    (run : checkedTotal reason lengths total = .ok result) : result.toNat = total.toNat + (lengths.map UInt64.toNat).sum := by
  induction lengths generalizing total with
  | nil =>
      cases run
      rfl
  | cons length rest ih =>
      simp only [checkedTotal, bind_ok, ensure_ok] at run
      obtain ⟨_, small, run⟩ := run
      rw [ih _ run, UInt64.toNat_add, Nat.mod_eq_of_lt small, List.map_cons, List.sum_cons, Nat.add_assoc]

theorem content_kinds (files : Files) (content : ContentRefV4) (objects : List StorageObjectRefV4)
    (run : contentObjects codec.toLocalCodec files content = .ok objects) : ∀ object ∈ objects, object.kind ≠ .snapshotOverlay := by
  unfold contentObjects at run
  simp only [bind_ok] at run
  obtain ⟨_, _, run⟩ := run
  cases stored : content.storage with
  | whole name =>
      simp only [stored, pure_ok] at run
      subst run
      simp
  | chunked name =>
      simp only [stored, bind_ok, pure_ok] at run
      obtain ⟨manifest, _, _, _, _, _, rfl⟩ := run
      simp

theorem contents_kinds (files : Files) (contents : List ContentRefV4) (objects : List StorageObjectRefV4)
    (run : contentsObjects codec.toLocalCodec files contents = .ok objects) : ∀ object ∈ objects, object.kind ≠ .snapshotOverlay := by
  induction contents generalizing objects with
  | nil =>
      cases run
      exact List.forall_mem_nil _
  | cons content rest ih =>
      simp only [contentsObjects, bind_ok, pure_ok] at run
      obtain ⟨first, one, others, later, rfl⟩ := run
      exact List.forall_mem_append.mpr ⟨content_kinds codec files content first one, ih others later⟩

theorem thread_kinds (files : Files) (references : List ThreadRefV4) (objects : List StorageObjectRefV4) (lengths : List UInt64)
    (run : listThreads codec.toLocalCodec files references = .ok (objects, lengths)) :
    ∀ object ∈ objects, object.kind ≠ .snapshotOverlay := by
  induction references generalizing objects lengths with
  | nil =>
      cases run
      exact List.forall_mem_nil _
  | cons reference rest ih =>
      simp only [listThreads, bind_ok, pure_ok, Prod.exists, Prod.mk.injEq] at run
      obtain ⟨descriptor, _, bytes, _, contents, one, others, lengths, later, rfl, _⟩ := run
      exact List.forall_mem_cons.mpr
        ⟨by simp, List.forall_mem_append.mpr ⟨contents_kinds codec files _ contents one, ih others lengths later⟩⟩

theorem snapshot_objects_distinct (repository : LocalRepository) (root : SnapshotRootV4) (objects : List StorageObjectRefV4)
    (run : snapshotObjects codec repository root = .ok objects) : objects.Nodup := by
  simp only [snapshotObjects, bind_ok, pure_ok, Prod.exists] at run
  obtain ⟨listed, _, threads, _, _, rfl⟩ := run
  refine List.nodup_cons.mpr ⟨fun member => ?_, List.nodup_dedup listed⟩
  exact thread_kinds codec _ _ _ _ threads _ (List.mem_dedup.mp member) rfl

end Objects

end SessionSync.Storage
