import SessionSync.Server.Traversal

set_option autoImplicit false

namespace SessionSync.Server

open SessionSync.Core Checked Storage

-- The structured objects of a graph by their names.
structure Catalog where
  descriptors : String → Option SemanticThreadDescriptorV4
  manifests : String → Option ChunkManifestV4

section Upload

variable (env : ServerEnv) (catalog : Catalog)

def structuredObject (kind : StorageObjectKind) (sha256 : String) (value : Value) : StorageObjectRef :=
  { kind := kind, sha256 := sha256, byteLength := fileLength (canonicalJson env.lib value) }

def Catalog.contentObjects (content : ContentRefV4) : List StorageObjectRef :=
  match content.storage with
  | .whole sha256 => [{ kind := .whole, sha256 := sha256, byteLength := content.byteLength }]
  | .chunked sha256 =>
      match catalog.manifests sha256 with
      | none => []
      | some manifest => structuredObject env .chunkManifest sha256 manifest.toValue :: manifest.chunks.map chunkObject

def Catalog.threadObjects (reference : ThreadRefV4) : Option ThreadObjects :=
  (catalog.descriptors reference.descriptorSha256).map fun descriptor =>
    (structuredObject env .thread reference.descriptorSha256 descriptor.toValue,
      descriptor.contents.flatMap (catalog.contentObjects env))

def rootId (root : RevisionRootV4) : String := digestBytes env.lib (canonicalJson env.lib root.toValue)

-- The distinct objects of the graph.
def Catalog.graph (root : RevisionRootV4) : List StorageObjectRef :=
  graphOf (structuredObject env .revisionRoot (rootId env root) root.toValue ::
    listed (root.threads.filterMap (catalog.threadObjects env)))

variable (files : Files)

-- The canonical text of a value is stored under its digest and reads back as the value.
structure StoredAs {τ : Type} (decode : Bytes → Except String τ) (encode : τ → Value) (key : ObjectKey) (value : τ) : Prop where
  stored : files[key]? = some (canonicalJson env.lib (encode value))
  digest : digestBytes env.lib (canonicalJson env.lib (encode value)) = key.2
  decodes : decode (canonicalJson env.lib (encode value)) = .ok value
  limit : fileLength (canonicalJson env.lib (encode value)) ≤ env.limit key.1

-- Plain bytes of the declared digest and length.
def BlobStored (object : StorageObjectRef) : Prop :=
  object.byteLength ≤ env.limit object.kind ∧ ∃ bytes, files[object.key]? = some bytes ∧
    digestBytes env.lib bytes = object.sha256 ∧ fileLength bytes = object.byteLength

def ContentUploaded (content : ContentRefV4) : Prop :=
  match content.storage with
  | .whole sha256 => BlobStored env files { kind := .whole, sha256 := sha256, byteLength := content.byteLength }
  | .chunked sha256 => ∃ manifest, catalog.manifests sha256 = some manifest ∧
      StoredAs env files env.serde.manifest ChunkManifestV4.toValue (.chunkManifest, sha256) manifest ∧
      manifest.validate = .ok () ∧ manifest.logicalSha256 = content.logicalSha256 ∧ manifest.byteLength = content.byteLength ∧
      ∀ chunk ∈ manifest.chunks, BlobStored env files (chunkObject chunk)

def ThreadUploaded (reference : ThreadRefV4) : Prop :=
  ∃ descriptor, catalog.descriptors reference.descriptorSha256 = some descriptor ∧
    StoredAs env files env.serde.descriptor SemanticThreadDescriptorV4.toValue (.thread, reference.descriptorSha256) descriptor ∧
    descriptor.validate = .ok () ∧ descriptor.threadId = reference.threadId ∧
    ∀ content ∈ descriptor.contents, ContentUploaded env catalog files content

structure Uploaded (root : RevisionRootV4) : Prop where
  read : StoredAs env files env.serde.revisionRoot RevisionRootV4.toValue (.revisionRoot, rootId env root) root
  valid : root.validate = .ok ()
  threads : ∀ reference ∈ root.threads, ThreadUploaded env catalog files reference

-- What a graph must also satisfy for the server to record it: no owner lists an
-- object twice, the timestamp is RFC 3339, and the counts fit the columns.
structure Committable (root : RevisionRootV4) : Prop where
  chunks : ∀ reference ∈ root.threads, ∀ descriptor, catalog.descriptors reference.descriptorSha256 = some descriptor →
    ∀ content ∈ descriptor.contents, ∀ sha256 manifest, content.storage = .chunked sha256 →
      catalog.manifests sha256 = some manifest → (manifest.chunks.map ChunkDescriptorV4.sha256).Nodup
  targets : ∀ reference ∈ root.threads, ∀ descriptor, catalog.descriptors reference.descriptorSha256 = some descriptor →
    ((descriptor.contents.flatMap (catalog.contentObjects env)).map StorageObjectRef.key).Nodup
  createdAt : env.lib.isRfc3339 root.createdAt = true
  threadCount : root.threads.length % 2 ^ 64 < 2 ^ 63
  objectCount : (catalog.graph env root).length % 2 ^ 64 < 2 ^ 63
  totalBytes : ((catalog.graph env root).map fun object => object.byteLength.toNat).sum < 2 ^ 63

end Upload

section Reads

variable (env : ServerEnv) (catalog : Catalog) (files : Files)

theorem stored_as_read {τ : Type} (decode : Bytes → Except String τ) (encode : τ → Value) (key : ObjectKey) (value : τ)
    (stored : StoredAs env files decode encode key value) :
    readTypedJson env decode encode files key = .ok (value, structuredObject env key.1 key.2 (encode value)) := by
  apply (read_typed_json_ok env files decode encode key value _).mpr
  refine ⟨_, ?_, stored.stored, stored.limit, stored.digest, stored.decodes, rfl, rfl⟩
  rw [← stored.digest]
  exact digest_bytes_valid env.lib _

theorem blob_stored_ensured (object : StorageObjectRef) (stored : BlobStored env files object) :
    ensureTypedObject env files object = .ok () := by
  obtain ⟨short, bytes, held, digest, length⟩ := stored
  apply (ensure_typed_object_ok env files object).mpr
  refine ⟨?_, short, bytes, held, length⟩
  rw [← digest]
  exact digest_bytes_valid env.lib bytes

theorem content_uploaded_targets (content : ContentRefV4) (uploaded : ContentUploaded env catalog files content) :
    contentTargets env files content = .ok (catalog.contentObjects env content) := by
  unfold ContentUploaded at uploaded
  cases storage : content.storage with
  | whole sha256 =>
      rw [storage] at uploaded
      apply (content_targets_whole env files content sha256 storage _).mpr
      refine ⟨blob_stored_ensured env files _ uploaded, ?_⟩
      rw [Catalog.contentObjects, storage]
  | chunked sha256 =>
      rw [storage] at uploaded
      obtain ⟨manifest, known, stored, valid, logical, length, chunks⟩ := uploaded
      apply (content_targets_chunked env files content sha256 storage _).mpr
      refine ⟨manifest, _, stored_as_read env files _ _ _ _ stored, ?_, fun chunk member => ?_, ?_⟩
      · simp only [checkManifest, invalidRequest, bind_ok, map_error_ok, ensure_ok]
        exact ⟨(), valid, logical, length⟩
      · obtain ⟨descriptor, inside, rfl⟩ := List.mem_map.mp member
        exact blob_stored_ensured env files _ (chunks descriptor inside)
      · simp only [Catalog.contentObjects, storage, known]

-- A descriptor's targets, and the chunks of every manifest among them, are distinct.
def ThreadDistinct (reference : ThreadRefV4) : Prop :=
  ∀ descriptor, catalog.descriptors reference.descriptorSha256 = some descriptor →
    ((descriptor.contents.flatMap (catalog.contentObjects env)).map StorageObjectRef.key).Nodup ∧
      ∀ content ∈ descriptor.contents, ((catalog.contentObjects env content).tail.map StorageObjectRef.key).Nodup

theorem contents_found_iff (contents : List ContentRefV4) (uploaded : ∀ content ∈ contents, ContentUploaded env catalog files content)
    (targets : List StorageObjectRef) :
    ContentsFound env files contents targets ↔ targets = contents.flatMap (catalog.contentObjects env) ∧
      ∀ content ∈ contents, ((catalog.contentObjects env content).tail.map StorageObjectRef.key).Nodup := by
  have one : ∀ content ∈ contents, ∀ own, ContentFound env files content own ↔
      own = catalog.contentObjects env content ∧ (own.tail.map StorageObjectRef.key).Nodup := by
    intro content member own
    rw [ContentFound, content_uploaded_targets env catalog files content (uploaded content member), Except.ok.injEq, eq_comm]
  constructor
  · rintro ⟨lists, all, flat⟩
    subst flat
    clear uploaded
    induction all with
    | nil => exact ⟨rfl, List.forall_mem_nil _⟩
    | cons found _ ih =>
        obtain ⟨same, distinct⟩ := (one _ List.mem_cons_self _).mp found
        obtain ⟨flat, rest⟩ := ih fun content member => one content (List.mem_cons_of_mem _ member)
        refine ⟨by rw [List.flatten_cons, List.flatMap_cons, flat, same], List.forall_mem_cons.mpr ⟨same ▸ distinct, rest⟩⟩
  · rintro ⟨flat, distinct⟩
    refine ⟨contents.map (catalog.contentObjects env), List.forall₂_map_right_iff.mpr (List.forall₂_same.mpr ?_), ?_⟩
    · intro content member
      exact (one content member _).mpr ⟨rfl, distinct content member⟩
    · rw [flat, List.flatMap_def]

theorem thread_found_iff (reference : ThreadRefV4) (uploaded : ThreadUploaded env catalog files reference) (thread : ThreadObjects) :
    ThreadFound env files reference thread ↔
      catalog.threadObjects env reference = some thread ∧ ThreadDistinct env catalog reference := by
  obtain ⟨descriptor, known, stored, valid, named, contents⟩ := uploaded
  have read := stored_as_read env files _ _ _ _ stored
  have checked : checkDescriptor reference descriptor = .ok () := by
    simp only [checkDescriptor, invalidRequest, bind_ok, map_error_ok, ensure_ok]
    exact ⟨(), valid, named⟩
  simp only [Catalog.threadObjects, ThreadDistinct, known, Option.map_some, Option.some.injEq, forall_eq']
  constructor
  · rintro ⟨other, reread, _, found, distinct⟩
    rw [show readDescriptor env files _ = _ from read, Except.ok.injEq, Prod.mk.injEq] at reread
    obtain ⟨rfl, made⟩ := reread
    obtain ⟨same, chunks⟩ := (contents_found_iff env catalog files _ contents _).mp found
    exact ⟨Prod.ext made same.symm, same ▸ distinct, chunks⟩
  · rintro ⟨same, distinct, chunks⟩
    subst same
    exact ⟨descriptor, read, checked, (contents_found_iff env catalog files _ contents _).mpr ⟨rfl, chunks⟩, distinct⟩

theorem thread_refs_distinct (references : List ThreadRefV4) (ids : List String)
    (run : validateThreadRefsV4 references ids = .ok ()) :
    references.Pairwise (fun one other => one.threadId ≠ other.threadId) ∧ ∀ reference ∈ references, reference.threadId ∉ ids := by
  induction references generalizing ids with
  | nil => exact ⟨.nil, nofun⟩
  | cons reference rest ih =>
      simp only [validateThreadRefsV4, bind_ok, ensure_ok] at run
      obtain ⟨_, _, _, _, _, fresh, tail⟩ := run
      obtain ⟨apart, outside⟩ := ih _ tail
      refine ⟨List.pairwise_cons.mpr ⟨fun other member same => ?_, apart⟩, List.forall_mem_cons.mpr ⟨fresh, fun other member => ?_⟩⟩
      · exact outside other member (List.mem_cons.mpr (.inl same.symm))
      · exact fun inside => outside other member (List.mem_cons_of_mem _ inside)

theorem threads_found_iff (references : List ThreadRefV4)
    (uploaded : ∀ reference ∈ references, ThreadUploaded env catalog files reference) (threads : List ThreadObjects) :
    List.Forall₂ (ThreadFound env files) references threads ↔
      threads = references.filterMap (catalog.threadObjects env) ∧ ∀ reference ∈ references,
        ThreadDistinct env catalog reference := by
  induction references generalizing threads with
  | nil => rw [List.forall₂_nil_left_iff, List.filterMap_nil, and_iff_left nofun]
  | cons reference rest ih =>
      have tail := ih fun other member => uploaded other (List.mem_cons_of_mem _ member)
      have head := thread_found_iff env catalog files reference (uploaded reference List.mem_cons_self)
      rw [List.forall_mem_cons]
      constructor
      · intro all
        cases all with
        | cons found later =>
            obtain ⟨known, distinct⟩ := (head _).mp found
            obtain ⟨same, others⟩ := (tail _).mp later
            exact ⟨by rw [List.filterMap_cons_some known, same], distinct, others⟩
      · intro ⟨same, distinct, others⟩
        obtain ⟨descriptor, known, _⟩ := uploaded reference List.mem_cons_self
        have some_ : ∃ thread, catalog.threadObjects env reference = some thread :=
          ⟨_, by rw [Catalog.threadObjects, known, Option.map_some]⟩
        obtain ⟨thread, known⟩ := some_
        rw [same, List.filterMap_cons_some known]
        exact .cons ((head _).mpr ⟨known, distinct⟩) ((tail _).mpr ⟨rfl, others⟩)

-- Two threads with one descriptor would have one thread ID.
theorem descriptors_distinct (references : List ThreadRefV4) (run : validateThreadRefsV4 references [] = .ok ())
    (uploaded : ∀ reference ∈ references, ThreadUploaded env catalog files reference) :
    (((references.filterMap (catalog.threadObjects env)).map Prod.fst).map StorageObjectRef.key).Nodup := by
  rw [List.map_map, List.Nodup, List.pairwise_map, List.pairwise_filterMap]
  refine List.Pairwise.imp_of_mem (fun {one other} first second apart => ?_) (thread_refs_distinct references [] run).1
  intro thread known later_ laterKnown same
  obtain ⟨descriptor, found, _, _, named, _⟩ := uploaded one first
  obtain ⟨second_, other_, _, _, otherNamed, _⟩ := uploaded other second
  rw [Catalog.threadObjects, found, Option.map_some, Option.some.injEq] at known
  rw [Catalog.threadObjects, other_, Option.map_some, Option.some.injEq] at laterKnown
  subst known laterKnown
  have shared : one.descriptorSha256 = other.descriptorSha256 := congrArg Prod.snd same
  rw [shared, other_] at found
  cases found
  exact apart (named.symm.trans otherNamed)

theorem revision_found_iff (root : RevisionRootV4) (uploaded : Uploaded env catalog files root)
    (result : RevisionRootV4 × List StorageObjectRef) :
    RevisionFound env files (rootId env root) result ↔
      result = (root, catalog.graph env root) ∧ ∀ reference ∈ root.threads, ThreadDistinct env catalog reference := by
  have read := stored_as_read env files _ _ _ _ uploaded.read
  have refs : validateThreadRefsV4 root.threads [] = .ok () := by
    have valid := uploaded.valid
    simp only [RevisionRootV4.validate, bind_ok] at valid
    obtain ⟨_, _, _, _, rest⟩ := valid
    split at rest
    · exact ((bind_ok _ _ _).mp rest).elim fun _ both => both.2
    · exact rest
  have checked : checkRevisionRoot env (rootId env root) root = .ok () := by
    simp only [checkRevisionRoot, invalidRequest, RevisionRootV4.revisionId, bind_ok, map_error_ok, ensure_ok, pure_ok]
    exact ⟨(), uploaded.valid, _, ⟨(), uploaded.valid, rfl⟩, rfl⟩
  constructor
  · rintro ⟨object, threads, reread, _, all, _, made⟩
    rw [show readRevisionRoot env files _ = _ from read, Except.ok.injEq, Prod.mk.injEq] at reread
    obtain ⟨same, rfl⟩ := reread
    rw [← same] at all
    obtain ⟨rfl, distinct⟩ := (threads_found_iff env catalog files _ uploaded.threads _).mp all
    exact ⟨Prod.ext same.symm made, distinct⟩
  · rintro ⟨same, distinct⟩
    subst same
    refine ⟨_, _, read, checked, (threads_found_iff env catalog files _ uploaded.threads _).mpr ⟨rfl, distinct⟩, ?_, rfl⟩
    exact descriptors_distinct env catalog files root.threads refs uploaded.threads

theorem thread_distinct_iff (root : RevisionRootV4) :
    (∀ reference ∈ root.threads, ThreadDistinct env catalog reference) ↔
      (∀ reference ∈ root.threads, ∀ descriptor, catalog.descriptors reference.descriptorSha256 = some descriptor →
        ∀ content ∈ descriptor.contents, ∀ sha256 manifest, content.storage = .chunked sha256 →
          catalog.manifests sha256 = some manifest → (manifest.chunks.map ChunkDescriptorV4.sha256).Nodup) ∧
      ∀ reference ∈ root.threads, ∀ descriptor, catalog.descriptors reference.descriptorSha256 = some descriptor →
        ((descriptor.contents.flatMap (catalog.contentObjects env)).map StorageObjectRef.key).Nodup := by
  have tails : ∀ content : ContentRefV4, ((catalog.contentObjects env content).tail.map StorageObjectRef.key).Nodup ↔
      ∀ sha256 manifest, content.storage = .chunked sha256 → catalog.manifests sha256 = some manifest →
        (manifest.chunks.map ChunkDescriptorV4.sha256).Nodup := by
    intro content
    rw [Catalog.contentObjects]
    cases storage : content.storage with
    | whole sha256 => exact iff_of_true List.nodup_nil nofun
    | chunked sha256 =>
        cases known : catalog.manifests sha256 with
        | none =>
            refine iff_of_true ?_ fun other manifest same found => ?_
            · simp only [known, List.tail_nil, List.map_nil, List.nodup_nil]
            · cases same
              rw [known] at found
              cases found
        | some manifest =>
            have chunks : (manifest.chunks.map chunkObject).map StorageObjectRef.key =
                (manifest.chunks.map ChunkDescriptorV4.sha256).map (Prod.mk StorageObjectKind.chunk) := by
              rw [List.map_map, List.map_map]
              rfl
            simp only [known, List.tail_cons]
            rw [chunks, List.nodup_map_iff (Prod.mk_right_injective _)]
            constructor
            · intro distinct other found same stored
              cases same
              rw [known] at stored
              cases stored
              exact distinct
            · intro distinct
              exact distinct sha256 manifest rfl known
  simp only [ThreadDistinct, tails]
  constructor
  · intro all
    exact ⟨fun reference member descriptor known => (all reference member descriptor known).2,
      fun reference member descriptor known => (all reference member descriptor known).1⟩
  · intro ⟨chunks, targets⟩ reference member descriptor known
    exact ⟨targets reference member descriptor known, chunks reference member descriptor known⟩

end Reads

end SessionSync.Server
