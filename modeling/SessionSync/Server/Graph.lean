import SessionSync.Server.Api

set_option autoImplicit false

namespace SessionSync.Server

open SessionSync.Core Checked Storage

-- What a traversal reads, without the edge rows it writes on its way.
def ensureAll (env : ServerEnv) (files : Std.ExtTreeMap ObjectKey Bytes) : List StorageObjectRef → Except HttpError Unit
  | [] => .ok ()
  | object :: rest => do
      ensureTypedObject env files object
      ensureAll env files rest

def contentTargets (env : ServerEnv) (files : Std.ExtTreeMap ObjectKey Bytes) (content : ContentRefV4) :
    Except HttpError (List StorageObjectRef) :=
  match content.storage with
  | .whole objectSha256 => do
      let object : StorageObjectRef := { kind := .whole, sha256 := objectSha256, byteLength := content.byteLength }
      ensureTypedObject env files object
      return [object]
  | .chunked manifestSha256 => do
      let (manifest, manifestObject) ← readManifest env files manifestSha256
      checkManifest content manifest
      ensureAll env files (manifest.chunks.map chunkObject)
      return manifestObject :: manifest.chunks.map chunkObject

def contentsTargets (env : ServerEnv) (files : Std.ExtTreeMap ObjectKey Bytes) : List ContentRefV4 →
    Except HttpError (List StorageObjectRef)
  | [] => .ok []
  | content :: rest => do
      let targets ← contentTargets env files content
      let later ← contentsTargets env files rest
      return targets ++ later

-- A thread of a root: its descriptor object and what the descriptor refers to.
abbrev ThreadObjects := StorageObjectRef × List StorageObjectRef

def threadObjects (env : ServerEnv) (files : Std.ExtTreeMap ObjectKey Bytes) (reference : ThreadRefV4) :
    Except HttpError ThreadObjects := do
  let (descriptor, object) ← readDescriptor env files reference.descriptorSha256
  checkDescriptor reference descriptor
  let targets ← contentsTargets env files descriptor.contents
  return (object, targets)

def threadsObjects (env : ServerEnv) (files : Std.ExtTreeMap ObjectKey Bytes) : List ThreadRefV4 →
    Except HttpError (List ThreadObjects)
  | [] => .ok []
  | reference :: rest => do
      let thread ← threadObjects env files reference
      let later ← threadsObjects env files rest
      return thread :: later

def listed (threads : List ThreadObjects) : List StorageObjectRef := threads.flatMap fun thread => thread.1 :: thread.2

def rootObjectsV4 (env : ServerEnv) (files : Std.ExtTreeMap ObjectKey Bytes) (revisionId : String) :
    Except HttpError (RevisionRootV4 × List StorageObjectRef) := do
  let (root, object) ← readRevisionRoot env files revisionId
  checkRevisionRoot env revisionId root
  let threads ← threadsObjects env files root.threads
  return (root, object :: listed threads)

-- The objects an object names, read from the files alone.
def contentKeys (env : ServerEnv) (files : Std.ExtTreeMap ObjectKey Bytes) (content : ContentRefV4) :
    Except HttpError (List ObjectKey) :=
  match content.storage with
  | .whole objectSha256 => .ok [(.whole, objectSha256)]
  | .chunked manifestSha256 => do
      let (manifest, manifestObject) ← readManifest env files manifestSha256
      return manifestObject.key :: manifest.chunks.map fun chunk => (chunkObject chunk).key

def contentsKeys (env : ServerEnv) (files : Std.ExtTreeMap ObjectKey Bytes) : List ContentRefV4 → Except HttpError (List ObjectKey)
  | [] => .ok []
  | content :: rest => do
      let keys ← contentKeys env files content
      let later ← contentsKeys env files rest
      return keys ++ later

def objectTargets (env : ServerEnv) (files : Std.ExtTreeMap ObjectKey Bytes) : ObjectKey → Except HttpError (List ObjectKey)
  | (.revisionRoot, sha256) => do
      let (root, _) ← readRevisionRoot env files sha256
      return root.threads.map fun thread => (.thread, thread.descriptorSha256)
  | (.thread, sha256) => do
      let (descriptor, _) ← readDescriptor env files sha256
      contentsKeys env files descriptor.contents
  | (.chunkManifest, sha256) => do
      let (manifest, _) ← readManifest env files sha256
      return manifest.chunks.map fun chunk => (chunkObject chunk).key
  | (.whole, _) | (.chunk, _) => .ok []

section Reads

variable (env : ServerEnv) (files other : Std.ExtTreeMap ObjectKey Bytes)

def Keeps (key : ObjectKey) : Prop := ∀ bytes, files[key]? = some bytes → other[key]? = some bytes

theorem read_typed_json_ok {τ : Type} (decode : Bytes → Except String τ) (encode : τ → Value) (key : ObjectKey) (value : τ)
    (object : StorageObjectRef) :
    readTypedJson env decode encode files key = .ok (value, object) ↔
      ∃ bytes, validSha256 key.2 = true ∧ files[key]? = some bytes ∧ fileLength bytes ≤ env.limit key.1 ∧
        digestBytes env.lib bytes = key.2 ∧ decode bytes = .ok value ∧ canonicalJson env.lib (encode value) = bytes ∧
        object = { kind := key.1, sha256 := key.2, byteLength := fileLength bytes } := by
  simp only [readTypedJson, openDownload, objectPath, invalidRequest, bind_ok, map_error_ok, ensure_ok, found_ok, pure_ok,
    Prod.mk.injEq]
  constructor
  · rintro ⟨bytes, ⟨_, valid, _, stored, _, short, same⟩, _, digest, _, decoded, _, canonical, sameValue, named⟩
    subst same sameValue
    exact ⟨_, valid, stored, short, digest, decoded, canonical, named.symm⟩
  · rintro ⟨bytes, valid, stored, short, digest, decoded, canonical, named⟩
    exact ⟨bytes, ⟨(), valid, bytes, stored, (), short, rfl⟩, (), digest, value, decoded, (), canonical, rfl, named.symm⟩

theorem read_typed_json_key {τ : Type} (decode : Bytes → Except String τ) (encode : τ → Value) (key : ObjectKey) (value : τ)
    (object : StorageObjectRef) (run : readTypedJson env decode encode files key = .ok (value, object)) : object.key = key := by
  obtain ⟨_, _, _, _, _, _, _, rfl⟩ := (read_typed_json_ok env files decode encode key value object).mp run
  rfl

theorem read_typed_json_keeps {τ : Type} (decode : Bytes → Except String τ) (encode : τ → Value) (key : ObjectKey)
    (result : τ × StorageObjectRef) (keeps : Keeps files other key) (run : readTypedJson env decode encode files key = .ok result) :
    readTypedJson env decode encode other key = .ok result := by
  obtain ⟨bytes, valid, stored, rest⟩ := (read_typed_json_ok env files decode encode key result.1 result.2).mp run
  exact (read_typed_json_ok env other decode encode key result.1 result.2).mpr ⟨bytes, valid, keeps bytes stored, rest⟩

theorem ensure_typed_object_ok (object : StorageObjectRef) :
    ensureTypedObject env files object = .ok () ↔
      validSha256 object.sha256 = true ∧ object.byteLength ≤ env.limit object.kind ∧
        ∃ bytes, files[object.key]? = some bytes ∧ fileLength bytes = object.byteLength := by
  simp only [ensureTypedObject, missing, objectPath, bind_ok, map_error_ok, ensure_ok]
  cases stored : files[object.key]? with
  | none =>
      refine iff_of_false ?_ ?_
      · rintro ⟨absent, ⟨_, _, _, _, listed⟩, empty⟩
        cases listed
        cases empty
      · rintro ⟨_, _, bytes, impossible, _⟩
        cases impossible
  | some bytes =>
      simp only [bind_ok, ensure_ok]
      constructor
      · rintro ⟨absent, ⟨_, valid, _, short, _, length, _⟩, _⟩
        exact ⟨valid, short, bytes, rfl, length⟩
      · rintro ⟨valid, short, found, same, length⟩
        cases same
        exact ⟨[], ⟨(), valid, (), short, (), length, rfl⟩, rfl⟩

theorem ensure_typed_object_keeps (object : StorageObjectRef) (keeps : Keeps files other object.key)
    (run : ensureTypedObject env files object = .ok ()) : ensureTypedObject env other object = .ok () := by
  obtain ⟨valid, short, bytes, stored, length⟩ := (ensure_typed_object_ok env files object).mp run
  exact (ensure_typed_object_ok env other object).mpr ⟨valid, short, bytes, keeps bytes stored, length⟩

theorem ensure_all_ok (objects : List StorageObjectRef) :
    ensureAll env files objects = .ok () ↔ ∀ object ∈ objects, ensureTypedObject env files object = .ok () := by
  induction objects with
  | nil => exact iff_of_true rfl nofun
  | cons object rest ih =>
      rw [ensureAll, bind_ok, List.forall_mem_cons, ih]
      exact ⟨fun ⟨_, first, later⟩ => ⟨first, later⟩, fun ⟨first, later⟩ => ⟨(), first, later⟩⟩

theorem content_targets_whole (content : ContentRefV4) (sha256 : String) (whole : content.storage = .whole sha256)
    (targets : List StorageObjectRef) :
    contentTargets env files content = .ok targets ↔
      ensureTypedObject env files { kind := .whole, sha256 := sha256, byteLength := content.byteLength } = .ok () ∧
        targets = [{ kind := .whole, sha256 := sha256, byteLength := content.byteLength }] := by
  simp only [contentTargets, whole, bind_ok, pure_ok]
  constructor
  · intro ⟨_, ensured, same⟩
    exact ⟨ensured, same.symm⟩
  · intro ⟨ensured, same⟩
    exact ⟨(), ensured, same.symm⟩

theorem content_targets_chunked (content : ContentRefV4) (sha256 : String) (chunked : content.storage = .chunked sha256)
    (targets : List StorageObjectRef) :
    contentTargets env files content = .ok targets ↔
      ∃ manifest object, readManifest env files sha256 = .ok (manifest, object) ∧ checkManifest content manifest = .ok () ∧
        (∀ chunk ∈ manifest.chunks.map chunkObject, ensureTypedObject env files chunk = .ok ()) ∧
        targets = object :: manifest.chunks.map chunkObject := by
  simp only [contentTargets, chunked, bind_ok, pure_ok, Prod.exists]
  constructor
  · intro ⟨manifest, object, read, _, checked, _, ensured, same⟩
    exact ⟨manifest, object, read, checked, (ensure_all_ok env files _).mp ensured, same.symm⟩
  · intro ⟨manifest, object, read, checked, ensured, same⟩
    exact ⟨manifest, object, read, (), checked, (), (ensure_all_ok env files _).mpr ensured, same.symm⟩

-- What a traversal found is found again where its objects are kept.
theorem content_targets_keeps (content : ContentRefV4) (targets : List StorageObjectRef)
    (keeps : ∀ object ∈ targets, Keeps files other object.key) (run : contentTargets env files content = .ok targets) :
    contentTargets env other content = .ok targets := by
  cases storage : content.storage with
  | whole sha256 =>
      obtain ⟨ensured, rfl⟩ := (content_targets_whole env files content sha256 storage targets).mp run
      apply (content_targets_whole env other content sha256 storage _).mpr
      exact ⟨ensure_typed_object_keeps env files other _ (keeps _ List.mem_cons_self) ensured, rfl⟩
  | chunked sha256 =>
      obtain ⟨manifest, object, read, checked, ensured, rfl⟩ :=
        (content_targets_chunked env files content sha256 storage targets).mp run
      apply (content_targets_chunked env other content sha256 storage _).mpr
      have named := read_typed_json_key env files _ _ _ _ _ read
      have kept := keeps object List.mem_cons_self
      rw [named] at kept
      refine ⟨manifest, object, read_typed_json_keeps env files other _ _ _ _ kept read, checked, fun chunk member => ?_, rfl⟩
      exact ensure_typed_object_keeps env files other chunk (keeps chunk (List.mem_cons_of_mem _ member)) (ensured chunk member)

theorem content_keys_of_targets (content : ContentRefV4) (targets : List StorageObjectRef)
    (run : contentTargets env files content = .ok targets) :
    contentKeys env files content = .ok (targets.map StorageObjectRef.key) := by
  cases storage : content.storage with
  | whole sha256 =>
      obtain ⟨_, rfl⟩ := (content_targets_whole env files content sha256 storage targets).mp run
      simp only [contentKeys, storage]
      rfl
  | chunked sha256 =>
      obtain ⟨manifest, object, read, _, _, rfl⟩ := (content_targets_chunked env files content sha256 storage targets).mp run
      simp only [contentKeys, storage, read, bind_ok, pure_ok, Except.ok.injEq, exists_eq_left', List.map_cons, List.map_map]
      rfl

-- A target of a content is a leaf, or a manifest whose chunks are targets too.
theorem content_targets_closed (content : ContentRefV4) (targets : List StorageObjectRef)
    (run : contentTargets env files content = .ok targets) (object : StorageObjectRef) (member : object ∈ targets) :
    ∃ keys, objectTargets env files object.key = .ok keys ∧ ∀ key ∈ keys, key ∈ targets.map StorageObjectRef.key := by
  cases storage : content.storage with
  | whole sha256 =>
      obtain ⟨_, rfl⟩ := (content_targets_whole env files content sha256 storage targets).mp run
      cases List.mem_singleton.mp member
      exact ⟨[], rfl, nofun⟩
  | chunked sha256 =>
      obtain ⟨manifest, first, read, _, _, rfl⟩ := (content_targets_chunked env files content sha256 storage targets).mp run
      rcases List.mem_cons.mp member with rfl | chunk
      · refine ⟨manifest.chunks.map fun chunk => (chunkObject chunk).key, ?_, fun key inside => ?_⟩
        · rw [read_typed_json_key env files _ _ _ _ _ read, objectTargets, bind_ok]
          exact ⟨_, read, rfl⟩
        · rw [List.map_cons, List.map_map]
          exact List.mem_cons_of_mem _ inside
      · obtain ⟨descriptor, _, rfl⟩ := List.mem_map.mp chunk
        exact ⟨[], rfl, nofun⟩

theorem contents_targets_ok (contents : List ContentRefV4) (targets : List StorageObjectRef)
    (run : contentsTargets env files contents = .ok targets) (object : StorageObjectRef) (member : object ∈ targets) :
    ∃ content ∈ contents, ∃ own, contentTargets env files content = .ok own ∧ object ∈ own ∧ ∀ other ∈ own, other ∈ targets := by
  induction contents generalizing targets with
  | nil =>
      cases run
      cases member
  | cons content rest ih =>
      simp only [contentsTargets, bind_ok, pure_ok] at run
      obtain ⟨own, first, later, tail, rfl⟩ := run
      rcases List.mem_append.mp member with inside | inside
      · exact ⟨content, List.mem_cons_self, own, first, inside, fun _ => List.mem_append_left _⟩
      · obtain ⟨found, listed, own', ran, mine, all⟩ := ih later tail inside
        exact ⟨found, List.mem_cons_of_mem _ listed, own', ran, mine, fun one member => List.mem_append_right _ (all one member)⟩

theorem contents_targets_keeps (contents : List ContentRefV4) (targets : List StorageObjectRef)
    (keeps : ∀ object ∈ targets, Keeps files other object.key) (run : contentsTargets env files contents = .ok targets) :
    contentsTargets env other contents = .ok targets := by
  induction contents generalizing targets with
  | nil => exact run
  | cons content rest ih =>
      simp only [contentsTargets, bind_ok, pure_ok] at run ⊢
      obtain ⟨own, first, later, tail, rfl⟩ := run
      refine ⟨own, content_targets_keeps env files other content own (fun object member => ?_) first, later, ih later ?_ tail, rfl⟩
      · exact keeps object (List.mem_append_left _ member)
      · exact fun object member => keeps object (List.mem_append_right _ member)

theorem contents_keys_of_targets (contents : List ContentRefV4) (targets : List StorageObjectRef)
    (run : contentsTargets env files contents = .ok targets) :
    contentsKeys env files contents = .ok (targets.map StorageObjectRef.key) := by
  induction contents generalizing targets with
  | nil =>
      cases run
      rfl
  | cons content rest ih =>
      simp only [contentsTargets, bind_ok, pure_ok] at run
      obtain ⟨own, first, later, tail, rfl⟩ := run
      simp only [contentsKeys, bind_ok, pure_ok]
      exact ⟨_, content_keys_of_targets env files content own first, _, ih later tail, List.map_append.symm⟩

theorem thread_objects_ok (reference : ThreadRefV4) (thread : ThreadObjects) :
    threadObjects env files reference = .ok thread ↔
      ∃ descriptor, readDescriptor env files reference.descriptorSha256 = .ok (descriptor, thread.1) ∧
        checkDescriptor reference descriptor = .ok () ∧ contentsTargets env files descriptor.contents = .ok thread.2 := by
  simp only [threadObjects, bind_ok, pure_ok, Prod.exists]
  constructor
  · intro ⟨descriptor, object, read, _, checked, targets, run, same⟩
    subst same
    exact ⟨descriptor, read, checked, run⟩
  · intro ⟨descriptor, read, checked, run⟩
    exact ⟨descriptor, thread.1, read, (), checked, thread.2, run, rfl⟩

theorem thread_objects_keeps (reference : ThreadRefV4) (thread : ThreadObjects)
    (keeps : ∀ object ∈ thread.1 :: thread.2, Keeps files other object.key) (run : threadObjects env files reference = .ok thread) :
    threadObjects env other reference = .ok thread := by
  obtain ⟨descriptor, read, checked, targets⟩ := (thread_objects_ok env files reference thread).mp run
  have kept := keeps thread.1 List.mem_cons_self
  rw [read_typed_json_key env files _ _ _ _ _ read] at kept
  apply (thread_objects_ok env other reference thread).mpr
  refine ⟨descriptor, read_typed_json_keeps env files other _ _ _ _ kept read, checked, ?_⟩
  exact contents_targets_keeps env files other _ _ (fun object member => keeps object (List.mem_cons_of_mem _ member)) targets

theorem thread_objects_targets (reference : ThreadRefV4) (thread : ThreadObjects)
    (run : threadObjects env files reference = .ok thread) :
    thread.1.key = (.thread, reference.descriptorSha256) ∧
      objectTargets env files thread.1.key = .ok (thread.2.map StorageObjectRef.key) := by
  obtain ⟨descriptor, read, _, targets⟩ := (thread_objects_ok env files reference thread).mp run
  have named := read_typed_json_key env files _ _ _ _ _ read
  refine ⟨named, ?_⟩
  rw [named, objectTargets, bind_ok]
  exact ⟨_, read, contents_keys_of_targets env files _ _ targets⟩

end Reads

end SessionSync.Server
