import SessionSync.Server.Intact

set_option autoImplicit false

namespace SessionSync.Server

open SessionSync.Core Checked Storage

variable (env : ServerEnv) (files : Files)

def Present (object : StorageObjectRef) : Prop :=
  ∃ bytes, files[object.key]? = some bytes ∧ bytes.length = object.byteLength.toNat

def Canonical {τ : Type} (decode : Bytes → Except String τ) (encode : τ → Value) (validate : τ → Except String Unit)
    (object : StorageObjectRef) : Prop :=
  ∃ bytes value, files[object.key]? = some bytes ∧ digestBytes env.lib bytes = object.sha256 ∧ decode bytes = .ok value ∧
    canonicalJson env.lib (encode value) = bytes ∧ validate value = .ok ()

-- A structured object is the canonical text of a value that passes its validation.
def Valid (object : StorageObjectRef) : Prop :=
  match object.kind with
  | .revisionRoot => Canonical env files env.serde.revisionRoot RevisionRootV4.toValue RevisionRootV4.validate object
  | .thread => Canonical env files env.serde.descriptor SemanticThreadDescriptorV4.toValue SemanticThreadDescriptorV4.validate object
  | .chunkManifest => Canonical env files env.serde.manifest ChunkManifestV4.toValue ChunkManifestV4.validate object
  | .whole | .chunk => True

-- `fileLength` wraps at 2^64, which no stored file reaches.
def Sized : Prop := ∀ (key : ObjectKey) (bytes : Bytes), files[key]? = some bytes → bytes.length < 2 ^ 64

theorem present_of_length (sizes : Sized files) (object : StorageObjectRef) (bytes : Bytes) (stored : files[object.key]? = some bytes)
    (length : fileLength bytes = object.byteLength) : Present files object := by
  refine ⟨bytes, stored, ?_⟩
  rw [← length, fileLength, UInt64.toNat_ofNat', Nat.mod_eq_of_lt (sizes _ bytes stored)]

theorem present_of_ensured (sizes : Sized files) (object : StorageObjectRef) (run : ensureTypedObject env files object = .ok ()) :
    Present files object := by
  obtain ⟨_, _, bytes, stored, length⟩ := (ensure_typed_object_ok env files object).mp run
  exact present_of_length files sizes object bytes stored length

theorem canonical_of_read {τ : Type} (sizes : Sized files) (decode : Bytes → Except String τ) (encode : τ → Value)
    (validate : τ → Except String Unit) (key : ObjectKey) (value : τ) (object : StorageObjectRef)
    (read : readTypedJson env decode encode files key = .ok (value, object)) (checked : validate value = .ok ()) :
    Present files object ∧ Canonical env files decode encode validate object := by
  obtain ⟨bytes, _, stored, _, digest, decoded, canonical, rfl⟩ :=
    (read_typed_json_ok env files decode encode key value object).mp read
  exact ⟨present_of_length files sizes _ bytes stored rfl, bytes, value, stored, digest, decoded, canonical, checked⟩

theorem content_sound (sizes : Sized files) (content : ContentRefV4) (targets : List StorageObjectRef)
    (run : contentTargets env files content = .ok targets) (object : StorageObjectRef) (member : object ∈ targets) :
    Present files object ∧ Valid env files object := by
  cases storage : content.storage with
  | whole sha256 =>
      obtain ⟨ensured, rfl⟩ := (content_targets_whole env files content sha256 storage targets).mp run
      cases List.mem_singleton.mp member
      exact ⟨present_of_ensured env files sizes _ ensured, trivial⟩
  | chunked sha256 =>
      obtain ⟨manifest, first, read, checked, chunks, rfl⟩ :=
        (content_targets_chunked env files content sha256 storage targets).mp run
      rcases List.mem_cons.mp member with rfl | inside
      · simp only [checkManifest, invalidRequest, bind_ok, map_error_ok] at checked
        obtain ⟨_, valid, _⟩ := checked
        have kind : object.kind = .chunkManifest := congrArg Prod.fst (read_typed_json_key env files _ _ _ _ _ read)
        obtain ⟨present, canonical⟩ := canonical_of_read env files sizes _ _ ChunkManifestV4.validate _ _ _ read valid
        refine ⟨present, ?_⟩
        rw [Valid, kind]
        exact canonical
      · obtain ⟨descriptor, _, rfl⟩ := List.mem_map.mp inside
        exact ⟨present_of_ensured env files sizes _ (chunks _ inside), trivial⟩

theorem thread_sound (sizes : Sized files) (reference : ThreadRefV4) (thread : ThreadObjects)
    (run : threadObjects env files reference = .ok thread) (object : StorageObjectRef) (member : object ∈ thread.1 :: thread.2) :
    Present files object ∧ Valid env files object := by
  obtain ⟨descriptor, read, checked, targets⟩ := (thread_objects_ok env files reference thread).mp run
  rcases List.mem_cons.mp member with rfl | inside
  · simp only [checkDescriptor, invalidRequest, bind_ok, map_error_ok] at checked
    obtain ⟨_, valid, _⟩ := checked
    have kind : thread.1.kind = .thread := congrArg Prod.fst (read_typed_json_key env files _ _ _ _ _ read)
    obtain ⟨present, canonical⟩ := canonical_of_read env files sizes _ _ SemanticThreadDescriptorV4.validate _ _ _ read valid
    refine ⟨present, ?_⟩
    rw [Valid, kind]
    exact canonical
  · obtain ⟨content, _, own, found, mine, _⟩ := contents_targets_ok env files _ _ targets object inside
    exact content_sound env files sizes content own found object mine

theorem root_sound (sizes : Sized files) (id : String) (root : RevisionRootV4) (objects : List StorageObjectRef)
    (run : rootObjectsV4 env files id = .ok (root, objects)) (object : StorageObjectRef) (member : object ∈ objects) :
    Present files object ∧ Valid env files object := by
  obtain ⟨first, threads, read, checked, found, rfl⟩ := (root_objects_ok env files id root objects).mp run
  rcases List.mem_cons.mp member with rfl | inside
  · simp only [checkRevisionRoot, invalidRequest, bind_ok, map_error_ok] at checked
    obtain ⟨_, valid, _⟩ := checked
    have kind : object.kind = .revisionRoot := congrArg Prod.fst (read_typed_json_key env files _ _ _ _ _ read)
    obtain ⟨present, canonical⟩ := canonical_of_read env files sizes _ _ RevisionRootV4.validate _ _ _ read valid
    refine ⟨present, ?_⟩
    rw [Valid, kind]
    exact canonical
  · obtain ⟨thread, among, own⟩ := (listed_member threads object).mp inside
    obtain ⟨reference, _, ran⟩ := forall₂_left _ _ _ ((threads_objects_ok env files _ _).mp found) thread among
    exact thread_sound env files sizes reference thread ran object own

end SessionSync.Server
