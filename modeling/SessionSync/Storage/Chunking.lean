import SessionSync.Storage.Content
import SessionSync.Storage.ManifestText
import SessionSync.Storage.CanonicalDecoders
import SessionSync.Lib.Chunks
import SessionSync.Rollout.Emission

set_option autoImplicit false

namespace SessionSync.Storage

open SessionSync.Core Checked Lib Rollout

-- FilesystemContentStoreV4::with_chunk_size.
structure ChunkSize where
  bytes : UInt32
  positive : bytes ≠ 0
  small : bytes ≤ chunkSizeV4

def withChunkSize (bytes : UInt32) : Except String ChunkSize :=
  if fits : bytes ≠ 0 ∧ bytes ≤ chunkSizeV4 then .ok ⟨bytes, fits.1, fits.2⟩
  else .error "v4 chunk size must be between 1 and 4194304"

theorem ChunkSize.pos (size : ChunkSize) : 0 < size.bytes.toNat := by
  refine Nat.pos_of_ne_zero fun none => size.positive ?_
  exact UInt32.toNat_inj.mp none

theorem ChunkSize.bound (size : ChunkSize) : size.bytes.toNat ≤ 4194304 := UInt32.le_iff_toNat_le.mp size.small

section Install

variable (lib : Primitives)

def blobRef (kind : StorageObjectKindV4) (bytes : Bytes) : StorageObjectRefV4 :=
  { kind := kind, sha256 := digestBytes lib bytes, byteLength := fileLength bytes }

def installChunk (files : Files) (bytes : Bytes) : Except String Files := installBytes lib files (blobRef lib .chunk bytes) bytes

-- Nothing else is stored under the name of the bytes.
def Free (files : Files) (kind : StorageObjectKindV4) (bytes : Bytes) : Prop :=
  ∀ held, files[(kind, digestBytes lib bytes)]? = some held → held = bytes

theorem install_blob_iff (files : Files) (kind : StorageObjectKindV4) (bytes : Bytes) (fits : fileLength bytes ≤ kind.maxBytes) :
    (∃ later, installBytes lib files (blobRef lib kind bytes) bytes = .ok later) ↔ Free lib files kind bytes := by
  have valid := digest_bytes_valid lib bytes
  simp only [installBytes, blobRef, StorageObjectRefV4.name, validateSha256V4, bind_ok, ensure_ok, fits, valid, Free,
    exists_const, true_and]
  cases files[((kind, digestBytes lib bytes) : ObjectName)]? with
  | none => simp [pure, Except.pure]
  | some existing =>
      simp only [bind_ok, ensure_ok, pure_ok, exists_const, Option.some.injEq, forall_eq']
      exact ⟨fun stored => stored.choose_spec.1, fun same => ⟨files, same, rfl⟩⟩

theorem install_blob_lookup (files later : Files) (kind : StorageObjectKindV4) (bytes : Bytes)
    (installed : installBytes lib files (blobRef lib kind bytes) bytes = .ok later) (name : ObjectName) :
    later[name]? = if name = (kind, digestBytes lib bytes) then some bytes else files[name]? := by
  obtain ⟨_, held⟩ := install_ok lib files later _ bytes installed
  by_cases same : name = (kind, digestBytes lib bytes)
  · rw [if_pos same, same]
    exact held
  · rw [if_neg same]
    simp only [installBytes, blobRef, StorageObjectRefV4.name, validateSha256V4, bind_ok, ensure_ok] at installed
    obtain ⟨_, _, _, _, _, _, _, _, installed⟩ := installed
    cases present : files[((kind, digestBytes lib bytes) : ObjectName)]? with
    | some existing =>
        simp only [present, bind_ok, ensure_ok, pure_ok] at installed
        obtain ⟨_, _, rfl⟩ := installed
        rfl
    | none =>
        simp only [present, pure_ok] at installed
        rw [← installed, Keyed.lookup_insert, if_neg same]

theorem chunk_fits (bytes : Bytes) (small : bytes.length ≤ 4194304) : fileLength bytes ≤ StorageObjectKindV4.chunk.maxBytes := by
  rw [UInt64.le_iff_toNat_le, fileLength, UInt64.toNat_ofNat_of_lt' (Nat.lt_of_le_of_lt small (by decide))]
  exact small

-- The chunks of one content can be stored side by side.
structure Storable (files : Files) (pieces : List Bytes) : Prop where
  free : ∀ piece ∈ pieces, Free lib files .chunk piece
  apart : ∀ one ∈ pieces, ∀ other ∈ pieces, digestBytes lib one = digestBytes lib other → one = other

theorem storable_cons (files later : Files) (piece : Bytes) (rest : List Bytes)
    (installed : installChunk lib files piece = .ok later) : Storable lib files (piece :: rest) ↔ Storable lib later rest ∧
      ∀ other ∈ rest, digestBytes lib piece = digestBytes lib other → piece = other := by
  have known := install_blob_lookup lib files later .chunk piece installed
  have here : Free lib files .chunk piece := by
    intro held stored
    obtain ⟨kept, present⟩ := install_ok lib files later _ piece installed
    exact Option.some.inj ((kept _ _ stored).symm.trans present)
  constructor
  · intro storable
    have alike := fun other member same => storable.apart piece List.mem_cons_self other (List.mem_cons_of_mem _ member) same
    refine ⟨⟨fun other member held stored => ?_, fun one first other second =>
      storable.apart one (List.mem_cons_of_mem _ first) other (List.mem_cons_of_mem _ second)⟩, alike⟩
    rw [known] at stored
    split at stored
    · rename_i same
      rw [← alike other member (Prod.mk.inj same).2.symm]
      exact (Option.some.inj stored).symm
    · exact storable.free other (List.mem_cons_of_mem _ member) held stored
  · rintro ⟨storable, alike⟩
    refine ⟨List.forall_mem_cons.mpr ⟨here, fun other member held stored => ?_⟩, ?_⟩
    · by_cases same : digestBytes lib piece = digestBytes lib other
      · have equal := alike other member same
        exact equal ▸ here held (equal ▸ stored)
      · refine storable.free other member held ?_
        rw [known, if_neg fun name => same (Prod.mk.inj name).2.symm]
        exact stored
    · intro one first other second same
      rcases List.mem_cons.mp first with rfl | inside
      · rcases List.mem_cons.mp second with rfl | within
        · rfl
        · exact alike other within same
      · rcases List.mem_cons.mp second with rfl | within
        · exact (alike one inside same.symm).symm
        · exact storable.apart one inside other within same

theorem install_chunks_iff (pieces : List Bytes) (files : Files) (small : ∀ piece ∈ pieces, piece.length ≤ 4194304) :
    (∃ later, pieces.foldlM (installChunk lib) files = .ok later) ↔ Storable lib files pieces := by
  induction pieces generalizing files with
  | nil => exact iff_of_true ⟨files, rfl⟩ ⟨List.forall_mem_nil _, fun _ member => absurd member List.not_mem_nil⟩
  | cons piece rest ih =>
      have fits := chunk_fits piece (small piece List.mem_cons_self)
      have first := install_blob_iff lib files .chunk piece fits
      rw [List.foldlM_cons]
      constructor
      · rintro ⟨later, run⟩
        obtain ⟨mid, installed, run⟩ := (bind_ok _ _ _).mp run
        have storable := (ih mid fun other member => small other (List.mem_cons_of_mem _ member)).mp ⟨later, run⟩
        refine (storable_cons lib files mid piece rest installed).mpr ⟨storable, fun other member same => ?_⟩
        refine storable.free other member piece ?_
        rw [install_blob_lookup lib files mid .chunk piece installed, if_pos (by rw [same])]
      · intro storable
        obtain ⟨mid, installed⟩ := first.mpr (storable.free piece List.mem_cons_self)
        obtain ⟨later, run⟩ := (ih mid fun other member => small other (List.mem_cons_of_mem _ member)).mpr
          ((storable_cons lib files mid piece rest installed).mp storable).1
        exact ⟨later, (bind_ok _ _ _).mpr ⟨mid, installed, run⟩⟩

theorem installed_chunks (pieces : List Bytes) (files later : Files) (run : pieces.foldlM (installChunk lib) files = .ok later) :
    Extends files later ∧ (∀ piece ∈ pieces, later[((.chunk, digestBytes lib piece) : ObjectName)]? = some piece) ∧
      ∀ name : ObjectName, name.1 ≠ .chunk → later[name]? = files[name]? := by
  induction pieces generalizing files with
  | nil =>
      cases run
      exact ⟨extends_refl _, List.forall_mem_nil _, fun _ _ => rfl⟩
  | cons piece rest ih =>
      rw [List.foldlM_cons, bind_ok] at run
      obtain ⟨mid, installed, run⟩ := run
      obtain ⟨kept, held, others⟩ := ih mid run
      obtain ⟨before, stored⟩ := install_ok lib files mid (blobRef lib .chunk piece) piece installed
      refine ⟨extends_trans _ _ _ before kept, List.forall_mem_cons.mpr ⟨kept _ _ stored, held⟩, fun name other => ?_⟩
      rw [others name other, install_blob_lookup lib files mid .chunk piece installed, if_neg]
      rintro rfl
      exact other rfl

end Install

section Manifest

variable (lib : Primitives)

theorem described_length (piece : Bytes) (small : piece.length < 2 ^ 32) :
    (describeChunk lib piece).byteLength.toNat = piece.length :=
  UInt64.toNat_ofNat_of_lt' (Nat.lt_of_lt_of_le small (by decide))

-- The loop over the descriptors passes exactly the lists of pieces that a cut can give.
theorem validate_chunks_iff (size : UInt32) (pieces : List Bytes) (small : ∀ piece ∈ pieces, piece.length ≤ size.toNat)
    (total result : UInt64) (short : total.toNat + pieces.flatten.length < 2 ^ 64) :
    validateChunks size (pieces.map (describeChunk lib)) total = .ok result ↔
      Chunked size.toNat pieces ∧ result.toNat = total.toNat + pieces.flatten.length := by
  induction pieces generalizing total with
  | nil =>
      simp only [List.map_nil, validateChunks, Except.ok.injEq, Chunked, List.flatten_nil, List.length_nil, Nat.add_zero, true_and,
        ← UInt64.toNat_inj]
      exact eq_comm
  | cons piece rest ih =>
      have bound := small piece List.mem_cons_self
      have limit := size.toNat_lt
      have length := described_length lib piece (by omega)
      rw [List.flatten_cons, List.length_append] at short ⊢
      have next : (total + (describeChunk lib piece).byteLength).toNat = total.toNat + piece.length := by
        rw [UInt64.toNat_add, length, Nat.mod_eq_of_lt (by omega)]
      have later :=
        ih (fun other member => small other (List.mem_cons_of_mem _ member)) (total + (describeChunk lib piece).byteLength)
        (by omega)
      have valid : validSha256 (describeChunk lib piece).sha256 = true := digest_bytes_valid lib piece
      have full : (describeChunk lib piece).byteLength = size.toUInt64 ↔ piece.length = size.toNat := by
        rw [← UInt64.toNat_inj, length, UInt32.toNat_toUInt64]
      have some : (describeChunk lib piece).byteLength ≠ 0 ↔ piece ≠ [] := by
        rw [Ne, ← UInt64.toNat_inj, length]
        exact not_congr List.length_eq_zero_iff
      have fits : (describeChunk lib piece).byteLength ≤ size.toUInt64 := by
        rw [UInt64.le_iff_toNat_le, length, UInt32.toNat_toUInt64]
        exact bound
      rw [List.map_cons, validateChunks]
      simp only [validateSha256V4, bind_ok, ensure_ok, valid, full, some, fits, and_true, exists_const, true_and, later, next,
        List.map_eq_nil_iff, length]
      have total_ : total.toNat + piece.length < 2 ^ 64 := by omega
      simp only [total_, true_and, Nat.add_assoc]
      cases rest with
      | nil => simp [Chunked, bound]
      | cons next rest => simp [Chunked, and_assoc]

theorem validate_manifest_iff (size : ChunkSize) (pieces : List Bytes) (small : ∀ piece ∈ pieces, piece.length ≤ size.bytes.toNat)
    (short : pieces.flatten.length < 2 ^ 64) :
    (chunkManifest lib size.bytes pieces.flatten (UInt64.ofNat pieces.flatten.length) pieces).validate = .ok () ↔
      Chunked size.bytes.toNat pieces := by
  have length : (UInt64.ofNat pieces.flatten.length).toNat = pieces.flatten.length := UInt64.toNat_ofNat_of_lt' short
  have loops := fun result => validate_chunks_iff lib size.bytes pieces small 0 result (by simpa using short)
  simp only [ChunkManifestV4.validate, chunkManifest, validateSha256V4, bind_ok, ensure_ok, digest_bytes_valid,
    size.positive, size.small, ne_eq, not_false_eq_true, and_true, exists_const, true_and, loops, List.map_eq_nil_iff]
  constructor
  · rintro ⟨_, ⟨chunked, _⟩, _⟩
    exact chunked
  · intro chunked
    refine ⟨UInt64.ofNat pieces.flatten.length, ⟨chunked, by rw [length]; simp⟩, (), (ensure_ok _ _ _).mpr rfl, ?_⟩
    by_cases empty : pieces = []
    · exact .inr empty
    · refine .inl fun none => ?_
      have zero : pieces.flatten.length = 0 := by rw [← length, none]; rfl
      obtain ⟨piece, rest, rfl⟩ := List.exists_cons_of_ne_nil empty
      have some := List.length_pos_of_ne_nil (chunked_head piece rest chunked).1
      rw [List.flatten_cons, List.length_append] at zero
      omega

def storeManifest (files : Files) (manifest : ChunkManifestV4) (mediaType : String) (logicalPath : Option String) :
    Except String (ContentRefV4 × Files) := do
  let (object, files) ← storeJson lib files .chunkManifest manifest.toValue
  return ({ logicalSha256 := manifest.logicalSha256, byteLength := manifest.byteLength, storage := .chunked object.sha256,
            mediaType := mediaType, logicalPath := logicalPath }, files)

-- The manifest of a list of pieces, its text and the reference that a content cut into them has.
def piecesManifest (size : ChunkSize) (pieces : List Bytes) : ChunkManifestV4 :=
  chunkManifest lib size.bytes pieces.flatten (UInt64.ofNat pieces.flatten.length) pieces

def manifestText (size : ChunkSize) (pieces : List Bytes) : Bytes := canonicalJson lib (piecesManifest lib size pieces).toValue

def chunkedContent (size : ChunkSize) (pieces : List Bytes) (mediaType : String) (logicalPath : Option String) : ContentRefV4 :=
  { logicalSha256 := digestBytes lib pieces.flatten, byteLength := UInt64.ofNat pieces.flatten.length,
    storage := .chunked (digestBytes lib (manifestText lib size pieces)), mediaType := mediaType, logicalPath := logicalPath }

theorem manifest_fits (size : ChunkSize) (pieces : List Bytes) (few : pieces.length ≤ maxChunksPerContentV4) :
    fileLength (manifestText lib size pieces) ≤ StorageObjectKindV4.chunkManifest.maxBytes := by
  have bound := manifest_length lib size.bytes pieces.flatten (UInt64.ofNat pieces.flatten.length) pieces
  have limit : maxChunksPerContentV4 = 16384 := rfl
  have text : (manifestText lib size pieces).length ≤ 16 * 1024 * 1024 := by
    rw [manifestText, piecesManifest]
    omega
  rw [UInt64.le_iff_toNat_le, fileLength, UInt64.toNat_ofNat_of_lt' (Nat.lt_of_le_of_lt text (by decide))]
  exact text

theorem store_manifest_iff (size : ChunkSize) (pieces : List Bytes) (few : pieces.length ≤ maxChunksPerContentV4) (files : Files)
    (mediaType : String) (logicalPath : Option String) :
    (∃ stored, storeManifest lib files (piecesManifest lib size pieces) mediaType logicalPath = .ok stored) ↔
      Free lib files .chunkManifest (manifestText lib size pieces) := by
  have fits := manifest_fits lib size pieces few
  have text : canonicalJson lib (piecesManifest lib size pieces).toValue = manifestText lib size pieces := rfl
  rw [← install_blob_iff lib files .chunkManifest _ fits]
  simp only [storeManifest, storeJson, bind_ok, ensure_ok, pure_ok, text, fits, exists_const, true_and, Prod.exists]
  constructor
  · rintro ⟨_, _, _, _, ⟨later, installed, _⟩, _⟩
    exact ⟨later, installed⟩
  · rintro ⟨later, installed⟩
    exact ⟨_, _, _, _, ⟨later, installed, rfl⟩, rfl⟩

theorem store_manifest_ok (size : ChunkSize) (pieces : List Bytes) (files later : Files) (content : ContentRefV4) (mediaType : String)
    (logicalPath : Option String)
    (stored : storeManifest lib files (piecesManifest lib size pieces) mediaType logicalPath = .ok (content, later)) :
    content = chunkedContent lib size pieces mediaType logicalPath ∧ Extends files later ∧
      readObject lib later .chunkManifest (digestBytes lib (manifestText lib size pieces)) = .ok (manifestText lib size pieces) := by
  simp only [storeManifest, bind_ok, pure_ok, Prod.exists, Prod.mk.injEq] at stored
  obtain ⟨object, files, stored, rfl, rfl⟩ := stored
  obtain ⟨rfl, kept, read⟩ := store_json_ok lib _ _ _ _ _ stored
  exact ⟨rfl, kept, read⟩

-- Chunks and manifest go in when their names are free; no chunk takes the manifest's name.
theorem stored_pieces_iff (size : ChunkSize) (pieces : List Bytes) (small : ∀ piece ∈ pieces, piece.length ≤ size.bytes.toNat)
    (few : pieces.length ≤ maxChunksPerContentV4) (files : Files) (mediaType : String) (logicalPath : Option String) :
    (∃ mid, pieces.foldlM (installChunk lib) files = .ok mid ∧
      ∃ stored, storeManifest lib mid (piecesManifest lib size pieces) mediaType logicalPath = .ok stored) ↔
        Storable lib files pieces ∧ Free lib files .chunkManifest (manifestText lib size pieces) := by
  have stores := install_chunks_iff lib pieces files fun piece member => (small piece member).trans size.bound
  have named : ∀ mid, pieces.foldlM (installChunk lib) files = .ok mid →
      ((∃ stored, storeManifest lib mid (piecesManifest lib size pieces) mediaType logicalPath = .ok stored) ↔
        Free lib files .chunkManifest (manifestText lib size pieces)) := by
    intro mid installed
    have kept := (installed_chunks lib pieces files mid installed).2.2
    rw [store_manifest_iff lib size pieces few mid mediaType logicalPath]
    simp only [Free, kept (.chunkManifest, _) (by decide : StorageObjectKindV4.chunkManifest ≠ .chunk)]
  constructor
  · rintro ⟨mid, installed, stored⟩
    exact ⟨stores.mp ⟨mid, installed⟩, (named mid installed).mp stored⟩
  · rintro ⟨storable, free⟩
    obtain ⟨mid, installed⟩ := stores.mpr storable
    exact ⟨mid, installed, (named mid installed).mpr free⟩

theorem read_chunks (pieces : List Bytes) (files : Files)
    (held : ∀ piece ∈ pieces, files[((.chunk, digestBytes lib piece) : ObjectName)]? = some piece) :
    readChunks lib files (pieces.map (describeChunk lib)) = .ok pieces.flatten := by
  induction pieces with
  | nil => rfl
  | cons piece rest ih =>
      have file : objectFile files .chunk (describeChunk lib piece).sha256 = .ok piece :=
        (object_file_ok files .chunk _ piece).mpr ⟨digest_bytes_valid lib piece, held piece List.mem_cons_self⟩
      rw [List.map_cons, readChunks, file, List.flatten_cons]
      dsimp only [bind, Except.bind]
      rw [ih fun other member => held other (List.mem_cons_of_mem _ member)]
      simp [ensure, describeChunk, fileLength, pure, Except.pure]

-- serde_json reads the text of a manifest back.
def ReadsManifests (serde : Decoders) : Prop :=
  ∀ manifest : ChunkManifestV4, serde.manifest (canonicalJson lib manifest.toValue) = .ok manifest

-- A content that is stored chunk by chunk materialises to the bytes it was cut from.
theorem materialize_stored (serde : Decoders) (reads : ReadsManifests lib serde) (size : ChunkSize) (pieces : List Bytes)
    (mediaType : String) (logicalPath : Option String) (valid : (piecesManifest lib size pieces).validate = .ok ()) (files : Files)
    (manifest : readObject lib files .chunkManifest (digestBytes lib (manifestText lib size pieces)) =
      .ok (manifestText lib size pieces))
    (held : ∀ piece ∈ pieces, files[((.chunk, digestBytes lib piece) : ObjectName)]? = some piece) :
    materializeContent lib serde files (chunkedContent lib size pieces mediaType logicalPath) = .ok pieces.flatten := by
  have read : readJson lib serde.manifest files .chunkManifest (digestBytes lib (manifestText lib size pieces)) =
      .ok (piecesManifest lib size pieces) := (read_json_ok lib _ _ _ _ _).mpr ⟨_, manifest, reads _⟩
  simp only [materializeContent, chunkedContent, read, valid, bind, Except.bind]
  exact read_chunks lib pieces files held

end Manifest

section Decoders

theorem chunk_descriptor_injective (left right : ChunkDescriptorV4) (same : sortKeys left.toValue = sortKeys right.toValue) :
    left = right := by
  have fields := (sort_object_cancel _ _ (by rfl) (by simp)).mp same
  simp only [sortFields, List.cons.injEq, Prod.mk.injEq, true_and, and_true] at fields
  cases left
  cases right
  simp only [ChunkDescriptorV4.mk.injEq]
  exact ⟨Value.string.inj fields.1, nat_injective _ _ fields.2⟩

theorem manifest_printable (manifest : ChunkManifestV4) : Printable manifest.toValue := by
  refine ⟨trivial, trivial, trivial, trivial, (printable_elements _).mpr fun value member => ?_, trivial⟩
  obtain ⟨chunk, _, rfl⟩ := List.mem_map.mp member
  exact ⟨trivial, trivial, trivial⟩

theorem manifest_text_injective (lib : Primitives) (floats : PrintsFloats lib) (left right : ChunkManifestV4)
    (same : canonicalJson lib left.toValue = canonicalJson lib right.toValue) : left = right := by
  have sorted := (canonical_json_sorted floats _ _ (manifest_printable left) (manifest_printable right)).mp same
  have fields := (sort_object_cancel _ _ (by rfl) (by simp)).mp sorted
  simp only [sortFields, List.cons.injEq, Prod.mk.injEq, true_and, and_true] at fields
  obtain ⟨schema, logical, length, size, chunks⟩ := fields
  cases left
  cases right
  simp only [ChunkManifestV4.mk.injEq]
  exact ⟨small_nat_injective _ _ schema, Value.string.inj logical, nat_injective _ _ length, small_nat_injective _ _ size,
    array_sorted_injective _ chunk_descriptor_injective _ _ chunks⟩

-- Decoders that take exactly the manifests of the canonical writer.
noncomputable def manifestDecoders (lib : Primitives) : Decoders :=
  { canonicalDecoders lib with manifest := readCanonical lib ChunkManifestV4.toValue fun _ => True }

theorem manifest_decoders_read (lib : Primitives) (floats : PrintsFloats lib) : ReadsManifests lib (manifestDecoders lib) :=
  fun manifest =>
  read_canonical lib _ _ (fun one other _ _ same => manifest_text_injective lib floats one other same) manifest trivial

end Decoders

end SessionSync.Storage
