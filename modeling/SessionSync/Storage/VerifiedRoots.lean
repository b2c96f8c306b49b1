import SessionSync.Storage.Sweep

set_option autoImplicit false

namespace SessionSync.Storage

open SessionSync.Core Checked

section Read

variable (codec : MarkCodec)

-- The bytes of every content, once each was checked against its name and its length.
def verifiedContents (files : Files) : List ContentRefV4 → Except String (List Bytes)
  | [] => .ok []
  | content :: rest => do
      validateContent codec.lib codec.serde files content
      let bytes ← materializeContent codec.lib codec.serde files content
      let others ← verifiedContents files rest
      return bytes :: others

def verifiedThreads (files : Files) : List ThreadRefV4 → Except String (List (SemanticThreadDescriptorV4 × List Bytes))
  | [] => .ok []
  | reference :: rest => do
      let descriptor ← loadDescriptor codec.lib codec.serde files reference
      let contents ← verifiedContents codec files descriptor.contents
      let others ← verifiedThreads files rest
      return (descriptor, contents) :: others

-- All that the manifest of a snapshot stands for.
def verifiedSnapshot (files : Files) (manifest : Bytes) :
    Except String (LocalSnapshot × Contents × List (SemanticThreadDescriptorV4 × List Bytes)) := do
  let (snapshot, contents) ← loadV4Snapshot codec.lib codec.serde files manifest
  let root ← readBoundedV4 codec.serde.snapshotRoot manifest
  let threads ← verifiedThreads codec files root.threads
  return (snapshot, contents, threads)

def verifiedRevision (files : Files) (revisionId : String) :
    Except String (RevisionRootV4 × List (SemanticThreadDescriptorV4 × List Bytes)) := do
  let root ← readJson codec.lib codec.serde.revisionRoot files .revisionRoot revisionId
  root.validate
  let threads ← verifiedThreads codec files root.threads
  return (root, threads)

end Read

-- Whatever of the objects is stored as it was recorded is still there.
def Keeps (files later : Files) (objects : List StorageObjectRefV4) : Prop :=
  ∀ object ∈ objects, Stored files object → later[object.name]? = files[object.name]?

section Kept

variable {codec : MarkCodec} {files later : Files}

theorem keeps_append (left right : List StorageObjectRefV4) (keeps : Keeps files later (left ++ right)) :
    Keeps files later left ∧ Keeps files later right :=
  ⟨fun object member => keeps object (List.mem_append_left _ member), fun object member =>
    keeps object (List.mem_append_right _ member)⟩

theorem keeps_agrees (objects : List StorageObjectRefV4) (sized : Sized files objects) (keeps : Keeps files later objects) :
    Agrees objects files later := fun object member structural => keeps object member (sized object member structural)

theorem read_chunks_kept (chunks : List ChunkDescriptorV4) (bytes : Bytes) (run : readChunks codec.lib files chunks = .ok bytes)
    (keeps : Keeps files later (chunks.map fun chunk => ⟨.chunk, chunk.sha256, chunk.byteLength⟩)) :
    readChunks codec.lib later chunks = .ok bytes := by
  induction chunks generalizing bytes with
  | nil => exact run
  | cons chunk rest ih =>
      simp only [readChunks, bind_ok, ensure_ok, pure_ok] at run ⊢
      obtain ⟨piece, read, _, checked, others, many, rfl⟩ := run
      have held := (object_file_ok _ _ _ _).mp read
      have stored : Stored files ⟨.chunk, chunk.sha256, chunk.byteLength⟩ := ⟨piece, held.2, by rw [fileRef, checked.1]; rfl⟩
      refine ⟨piece, ?_, (), checked, others, ih others many fun object member => keeps object (List.mem_cons_of_mem _ member), rfl⟩
      rw [object_file_same .chunk _ (keeps _ List.mem_cons_self stored)]
      exact read

-- A content that was whole is read as before.
theorem content_kept (canonical : CanonicalManifests codec files) (content : ContentRefV4) (objects : List StorageObjectRefV4)
    (bytes : Bytes) (listed : contentObjects codec.toLocalCodec files content = .ok objects) (keeps : Keeps files later objects)
    (valid : validateContent codec.lib codec.serde files content = .ok ())
    (read : materializeContent codec.lib codec.serde files content = .ok bytes) :
    validateContent codec.lib codec.serde later content = .ok () ∧
      materializeContent codec.lib codec.serde later content = .ok bytes := by
  have sized := content_objects_sized codec canonical content objects listed
  have same : materializeContent codec.lib codec.serde later content = .ok bytes := by
    cases storage : content.storage with
    | whole name =>
        unfold contentObjects at listed
        unfold validateContent at valid
        unfold materializeContent at read ⊢
        simp only [storage, readWhole, bind_ok, ensure_ok, pure_ok] at listed valid read ⊢
        obtain ⟨_, _, rfl⟩ := listed
        obtain ⟨found, ⟨_, held, _, _, rfl⟩, length, _⟩ := valid
        have there := (object_file_ok _ _ _ _).mp held
        have stored : Stored files ⟨.whole, name, content.byteLength⟩ := ⟨_, there.2, by rw [fileRef, length]; rfl⟩
        rw [object_file_same .whole _ (keeps _ (List.mem_singleton_self _) stored)]
        exact read
    | chunked name =>
        unfold contentObjects at listed
        unfold materializeContent at read ⊢
        simp only [storage, bind_ok, pure_ok] at listed read ⊢
        obtain ⟨_, _, manifest, decoded, _, _, _, _, rfl⟩ := listed
        obtain ⟨other, again, _, checked, many⟩ := read
        rw [decoded, Except.ok.injEq] at again
        subst again
        have own := keeps _ List.mem_cons_self (sized _ List.mem_cons_self ⟨by simp, by simp⟩)
        refine ⟨manifest, ?_, (), checked, read_chunks_kept manifest.chunks bytes many fun object member =>
          keeps object (List.mem_cons_of_mem _ member)⟩
        rw [read_json_same codec.lib codec.serde.manifest .chunkManifest name own]
        exact decoded
  refine ⟨?_, same⟩
  cases storage : content.storage with
  | whole name =>
      unfold validateContent at valid ⊢
      unfold materializeContent at same read
      simp only [storage, readWhole] at valid same read ⊢
      rw [same]
      rw [read] at valid
      exact valid
  | chunked name =>
      unfold validateContent at valid ⊢
      simp only [storage] at valid ⊢
      rw [same]
      rw [read] at valid
      exact valid

theorem contents_kept (canonical : CanonicalManifests codec files) (contents : List ContentRefV4) (objects : List StorageObjectRefV4)
    (all : List Bytes) (listed : contentsObjects codec.toLocalCodec files contents = .ok objects) (keeps : Keeps files later objects)
    (read : verifiedContents codec files contents = .ok all) : verifiedContents codec later contents = .ok all := by
  induction contents generalizing objects all with
  | nil => exact read
  | cons content rest ih =>
      simp only [contentsObjects, verifiedContents, bind_ok, pure_ok] at listed read ⊢
      obtain ⟨first, one, others, many, rfl⟩ := listed
      obtain ⟨_, valid, bytes, whole, below, more, rfl⟩ := read
      obtain ⟨here, there⟩ := keeps_append _ _ keeps
      obtain ⟨validated, again⟩ := content_kept canonical content first bytes one here valid whole
      exact ⟨(), validated, bytes, again, below, ih others below many there more, rfl⟩

theorem load_descriptor_agrees (reference : ThreadRefV4)
    (same : later[((.thread, reference.descriptorSha256) : ObjectName)]? =
      files[((.thread, reference.descriptorSha256) : ObjectName)]?) :
    loadDescriptor codec.lib codec.serde later reference = loadDescriptor codec.lib codec.serde files reference := by
  unfold loadDescriptor
  rw [read_json_same codec.lib codec.serde.descriptor .thread _ same]

theorem threads_kept (canonical : CanonicalManifests codec files) (references : List ThreadRefV4) (objects : List StorageObjectRefV4)
    (all : List (SemanticThreadDescriptorV4 × List Bytes)) (graph : graphThreads codec files references = .ok objects)
    (keeps : Keeps files later objects) (read : verifiedThreads codec files references = .ok all) :
    verifiedThreads codec later references = .ok all := by
  induction references generalizing objects all with
  | nil => exact read
  | cons reference rest ih =>
      have agrees := keeps_agrees _ (graph_threads_sized codec canonical _ _ graph) keeps
      simp only [graphThreads, verifiedThreads, bind_ok, pure_ok] at graph read ⊢
      obtain ⟨descriptor, decoded, _, _, bytes, _, contents, one, others, many, rfl⟩ := graph
      obtain ⟨loaded, own, found, whole, below, more, rfl⟩ := read
      obtain ⟨here, there⟩ := keeps_append _ _ keeps
      have sameDescriptor : loaded = descriptor := by
        have read := own
        simp only [loadDescriptor, bind_ok, pure_ok] at read
        obtain ⟨_, _, other, first, _, _, _, _, rfl⟩ := read
        rw [decoded, Except.ok.injEq] at first
        exact first.symm
      subst sameDescriptor
      have same := agrees _ (List.mem_append_left _ List.mem_cons_self) ⟨by simp, by simp⟩
      refine ⟨loaded, ?_, found, ?_, below, ih others below many there more, rfl⟩
      · rw [load_descriptor_agrees reference same]
        exact own
      · exact contents_kept canonical _ contents found one (fun object member => here object (List.mem_cons_of_mem _ member)) whole

theorem load_threads_agree (overlay : SnapshotOverlayV4) (references : List ThreadRefV4) (objects : List StorageObjectRefV4)
    (graph : graphThreads codec files references = .ok objects) (agrees : Agrees objects files later) (contents : Contents) :
    loadThreads codec.lib codec.serde later overlay references contents =
      loadThreads codec.lib codec.serde files overlay references contents := by
  induction references generalizing objects contents with
  | nil => rfl
  | cons reference rest ih =>
      simp only [graphThreads, bind_ok, pure_ok] at graph
      obtain ⟨descriptor, _, _, _, bytes, _, below, _, others, many, rfl⟩ := graph
      obtain ⟨here, there⟩ := agrees_append _ _ agrees
      have same := (agrees_cons _ _ here).1 ⟨by simp, by simp⟩
      unfold loadThreads
      rw [load_descriptor_agrees reference same]
      exact bind_congr fun loaded => bind_congr fun _ => by rw [ih others many there]

theorem snapshot_kept (canonical : CanonicalManifests codec files) (manifest : Bytes) (root : SnapshotRootV4)
    (objects : List StorageObjectRefV4) (decoded : readBoundedV4 codec.serde.snapshotRoot manifest = .ok root)
    (graph : collectSnapshotGraphObjects codec files root = .ok objects) (keeps : Keeps files later objects)
    (all : LocalSnapshot × Contents × List (SemanticThreadDescriptorV4 × List Bytes))
    (read : verifiedSnapshot codec files manifest = .ok all) : verifiedSnapshot codec later manifest = .ok all := by
  have agrees := keeps_agrees _ (snapshot_graph_sized codec canonical _ _ graph) keeps
  simp only [collectSnapshotGraphObjects, bind_ok, pure_ok] at graph
  obtain ⟨_, _, overlayBytes, _, threads, many, rfl⟩ := graph
  obtain ⟨own, below⟩ := agrees_cons _ _ agrees
  have overlaySame := own ⟨by simp, by simp⟩
  have loads : ∀ loaded, loadV4Snapshot codec.lib codec.serde files manifest = .ok loaded →
      loadV4Snapshot codec.lib codec.serde later manifest = .ok loaded := by
    intro loaded run
    simp only [loadV4Snapshot, loadOverlay, bind_ok, pure_ok] at run ⊢
    obtain ⟨other, again, _, valid, overlay, ⟨_, found, _, checked, rfl⟩, pair, listed, rfl⟩ := run
    rw [decoded, Except.ok.injEq] at again
    subst again
    refine ⟨root, decoded, (), valid, _, ⟨_, ?_, (), checked, rfl⟩, pair, ?_, rfl⟩
    · rw [read_json_same codec.lib codec.serde.overlay .snapshotOverlay _ overlaySame]
      exact found
    · rw [load_threads_agree _ root.threads threads many below]
      exact listed
  simp only [verifiedSnapshot, bind_ok, pure_ok] at read ⊢
  obtain ⟨snapshot, loaded, other, again, found, whole, rfl⟩ := read
  rw [decoded, Except.ok.injEq] at again
  subst again
  refine ⟨snapshot, loads _ loaded, root, decoded, found, ?_, rfl⟩
  exact threads_kept canonical root.threads threads found many
    (fun object member => keeps object (List.mem_cons_of_mem _ member)) whole

theorem revision_kept (canonical : CanonicalManifests codec files) (revisionId : String) (objects : List StorageObjectRefV4)
    (graph : collectRevisionGraphObjects codec files revisionId = .ok objects) (keeps : Keeps files later objects)
    (all : RevisionRootV4 × List (SemanticThreadDescriptorV4 × List Bytes))
    (read : verifiedRevision codec files revisionId = .ok all) :
    verifiedRevision codec later revisionId = .ok all := by
  have agrees := keeps_agrees _ (revision_graph_sized codec canonical _ _ graph) keeps
  simp only [collectRevisionGraphObjects, bind_ok, pure_ok] at graph
  obtain ⟨root, decoded, _, _, bytes, _, threads, many, rfl⟩ := graph
  have same := (agrees_cons _ _ agrees).1 ⟨by simp, by simp⟩
  simp only [verifiedRevision, bind_ok, pure_ok] at read ⊢
  obtain ⟨other, again, _, valid, found, whole, rfl⟩ := read
  rw [decoded, Except.ok.injEq] at again
  subst again
  refine ⟨root, ?_, (), valid, found, ?_, rfl⟩
  · rw [read_json_same codec.lib codec.serde.revisionRoot .revisionRoot _ same]
    exact decoded
  · exact threads_kept canonical root.threads threads found many
      (fun object member => keeps object (List.mem_cons_of_mem _ member)) whole

end Kept

end SessionSync.Storage
