import SessionSync.Core.JsonLength
import SessionSync.Core.Canonical
import SessionSync.Storage.Objects

set_option autoImplicit false

namespace SessionSync.Storage

open SessionSync.Core

def Ascii (text : List Char) : Prop := ∀ c ∈ text, c.toNat < 128

instance asciiDecidable (text : List Char) : Decidable (Ascii text) := List.decidableBAll _ text

theorem utf8_ascii (text : List Char) (ascii : Ascii text) : (utf8 text).length = text.length := by
  induction text with
  | nil => rfl
  | cons c rest ih =>
      have one : c.utf8Size = 1 := by
        rw [Char.utf8Size_eq_one_iff, UInt32.le_iff_toNat_le]
        have small := ascii c List.mem_cons_self
        exact Nat.le_of_lt_succ small
      have later := ih fun other member => ascii other (List.mem_cons_of_mem _ member)
      simp only [utf8, List.flatMap_cons, List.length_append, String.length_utf8EncodeChar, List.length_cons, one] at later ⊢
      omega

theorem ascii_append (left right : List Char) (first : Ascii left) (second : Ascii right) : Ascii (left ++ right) := by
  intro c member
  rcases List.mem_append.mp member with inside | inside
  · exact first c inside
  · exact second c inside

theorem ascii_cons (c : Char) (rest : List Char) (one : c.toNat < 128) (others : Ascii rest) : Ascii (c :: rest) :=
  List.forall_mem_cons.mpr ⟨one, others⟩

theorem ascii_digits (value : Nat) : Ascii (Nat.toDigits 10 value) := by
  intro c member
  have digit := digit_numeric value c member
  simp only [Char.isDigit, Bool.and_eq_true, decide_eq_true_eq, UInt32.le_iff_toNat_le] at digit
  exact Nat.lt_of_le_of_lt digit.2 (by decide)

theorem digits_length (value : UInt64) : (Nat.toDigits 10 value.toNat).length ≤ 20 := by
  have bound := value.toNat_lt
  rw [Nat.length_toDigits_le_iff (by decide) (by decide)]
  exact Nat.lt_of_lt_of_le bound (by decide)

-- A digest is written as it is, between quotes.
theorem write_digest (lib : Primitives) (bytes : Bytes) :
    (writeString (digestBytes lib bytes)).length = 73 ∧ Ascii (writeString (digestBytes lib bytes)) := by
  have plain : ∀ c ∈ (digestBytes lib bytes).toList, escapeChar c = [c] ∧ c.toNat < 128 := by
    have lower : ∀ c : Char, isLowerHex c = true → escapeChar c = [c] ∧ c.toNat < 128 := by
      intro c hex
      simp only [isLowerHex, Bool.or_eq_true, Bool.and_eq_true, decide_eq_true_eq, Char.le_def, UInt32.le_iff_toNat_le] at hex
      have zero : '0'.val.toNat = 48 := rfl
      have nine : '9'.val.toNat = 57 := rfl
      have a : 'a'.val.toNat = 97 := rfl
      have f : 'f'.val.toNat = 102 := rfl
      have code : c.toNat = c.val.toNat := rfl
      have quote : c ≠ '"' := by
        rintro rfl
        revert hex
        decide
      have slash : c ≠ '\\' := by
        rintro rfl
        revert hex
        decide
      refine ⟨?_, by omega⟩
      rw [escapeChar, if_neg quote, if_neg slash, if_neg (by omega), if_neg (by omega), if_neg (by omega), if_neg (by omega),
        if_neg (by omega), if_neg (by omega)]
    have written : (digestBytes lib bytes).toList = "sha256:".toList ++ hexEncode (lib.sha256 bytes).toList := String.toList_ofList
    intro c member
    rw [written] at member
    rcases List.mem_append.mp member with mark | digit
    · have marks : ("sha256:".toList.all fun c => escapeChar c = [c] ∧ c.toNat < 128) = true := by decide
      exact of_decide_eq_true (List.all_eq_true.mp marks c mark)
    · exact lower c (List.all_eq_true.mp (hex_encode_lower _) c digit)
  have same : (digestBytes lib bytes).toList.flatMap escapeChar = (digestBytes lib bytes).toList := by
    refine Eq.trans ?_ (List.flatMap_singleton' _)
    exact List.flatMap_congr fun c member => (plain c member).1
  have size := digest_bytes_length lib bytes
  rw [writeString, same]
  refine ⟨by simp only [List.length_append, List.length_cons, List.length_nil]; omega, ?_⟩
  exact ascii_append _ _ (ascii_cons _ _ (by decide) fun c member => (plain c member).2)
    (ascii_cons _ _ (by decide) (List.forall_mem_nil _))

section Manifest

variable (lib : Primitives)

def describeChunk (bytes : Bytes) : ChunkDescriptorV4 :=
  { sha256 := digestBytes lib bytes, byteLength := UInt64.ofNat bytes.length }

theorem chunk_sorted (chunk : ChunkDescriptorV4) :
    sortKeys chunk.toValue = .object [("byteLength", .nat chunk.byteLength), ("sha256", .string chunk.sha256)] := by
  have order : ("sha256" : String) ≤ "byteLength" ↔ False := by decide
  simp [ChunkDescriptorV4.toValue, sortKeys, sortFields, Value.nat, List.insertionSort, List.orderedInsert, order]

theorem manifest_sorted (manifest : ChunkManifestV4) : sortKeys manifest.toValue =
    .object [("byteLength", .nat manifest.byteLength), ("chunkSize", .nat manifest.chunkSize.toUInt64),
      ("chunks", .array (sortElements (manifest.chunks.map ChunkDescriptorV4.toValue))),
      ("logicalSha256", .string manifest.logicalSha256), ("schemaVersion", .nat manifest.schemaVersion.toUInt64)] := by
  simp [ChunkManifestV4.toValue, sortKeys, sortFields, Value.nat, List.insertionSort, List.orderedInsert]

theorem write_nat (value : UInt64) :
    (writeJson lib (.nat value)).length ≤ 20 ∧ Ascii (writeJson lib (.nat value)) := by
  rw [Value.nat, writeJson, writeNumber]
  exact ⟨digits_length value, ascii_digits _⟩

theorem write_chunk (bytes : Bytes) : (writeJson lib (sortKeys (describeChunk lib bytes).toValue)).length ≤ 120 ∧
    Ascii (writeJson lib (sortKeys (describeChunk lib bytes).toValue)) := by
  obtain ⟨digits, plainDigits⟩ := write_nat lib (UInt64.ofNat bytes.length)
  obtain ⟨digest, plainDigest⟩ := write_digest lib bytes
  have lengthKey : (writeString "byteLength").length = 12 ∧ Ascii (writeString "byteLength") := by decide
  have digestKey : (writeString "sha256").length = 8 ∧ Ascii (writeString "sha256") := by decide
  rw [chunk_sorted, writeJson, writeFields, writeFields, describeChunk]
  constructor
  · simp only [writeJson, List.length_append, List.length_cons, List.length_nil] at digits ⊢
    omega
  · refine ascii_append _ _ (ascii_cons _ _ (by decide) ?_) (ascii_cons _ _ (by decide) (List.forall_mem_nil _))
    refine ascii_append _ _ (ascii_append _ _ lengthKey.2 (ascii_cons _ _ (by decide) plainDigits)) (ascii_cons _ _ (by decide) ?_)
    refine ascii_append _ _ digestKey.2 (ascii_cons _ _ (by decide) ?_)
    rw [writeJson]
    exact plainDigest

theorem write_chunks (pieces : List Bytes) :
    (writeElements lib (sortElements ((pieces.map (describeChunk lib)).map ChunkDescriptorV4.toValue))).length ≤ 121 * pieces.length ∧
      Ascii (writeElements lib (sortElements ((pieces.map (describeChunk lib)).map ChunkDescriptorV4.toValue))) := by
  induction pieces with
  | nil => exact ⟨Nat.le_refl _, List.forall_mem_nil _⟩
  | cons piece rest ih =>
      obtain ⟨size, plain⟩ := write_chunk lib piece
      obtain ⟨sizes, plains⟩ := ih
      cases rest with
      | nil =>
          simp only [List.map_cons, List.map_nil, sortElements, writeElements, List.length_cons, List.length_nil]
          exact ⟨by omega, plain⟩
      | cons next rest =>
          simp only [List.map_cons, sortElements, writeElements, List.length_append, List.length_cons] at sizes plains ⊢
          exact ⟨by omega, ascii_append _ _ plain (ascii_cons _ _ (by decide) plains)⟩

def chunkManifest (chunkSize : UInt32) (logical : Bytes) (length : UInt64) (pieces : List Bytes) : ChunkManifestV4 :=
  { schemaVersion := 4, logicalSha256 := digestBytes lib logical, byteLength := length, chunkSize := chunkSize,
    chunks := pieces.map (describeChunk lib) }

-- The text of a manifest, which its object kind bounds.
theorem manifest_length (chunkSize : UInt32) (logical : Bytes) (length : UInt64) (pieces : List Bytes) :
    (canonicalJson lib (chunkManifest lib chunkSize logical length pieces).toValue).length ≤ 300 + 121 * pieces.length := by
  obtain ⟨total, plainTotal⟩ := write_nat lib length
  obtain ⟨size, plainSize⟩ := write_nat lib chunkSize.toUInt64
  obtain ⟨schema, plainSchema⟩ := write_nat lib (UInt32.toUInt64 4)
  obtain ⟨digest, plainDigest⟩ := write_digest lib logical
  obtain ⟨chunks, plainChunks⟩ := write_chunks lib pieces
  have keys : ∀ key ∈ ["byteLength", "chunkSize", "chunks", "logicalSha256", "schemaVersion"],
      (writeString key).length ≤ 15 ∧ Ascii (writeString key) := by decide
  have totalKey := keys "byteLength" (by decide)
  have sizeKey := keys "chunkSize" (by decide)
  have chunksKey := keys "chunks" (by decide)
  have digestKey := keys "logicalSha256" (by decide)
  have schemaKey := keys "schemaVersion" (by decide)
  have comma : ∀ rest, Ascii rest → Ascii (',' :: rest) := fun rest => ascii_cons _ rest (by decide)
  have colon : ∀ rest, Ascii rest → Ascii (':' :: rest) := fun rest => ascii_cons _ rest (by decide)
  have plain : Ascii (writeJson lib (sortKeys (chunkManifest lib chunkSize logical length pieces).toValue)) := by
    rw [manifest_sorted, chunkManifest, writeJson, writeFields, writeFields, writeFields, writeFields, writeFields]
    refine ascii_append _ _ (ascii_cons _ _ (by decide) ?_) (ascii_cons _ _ (by decide) (List.forall_mem_nil _))
    refine ascii_append _ _ (ascii_append _ _ totalKey.2 (colon _ plainTotal)) (comma _ ?_)
    refine ascii_append _ _ (ascii_append _ _ sizeKey.2 (colon _ plainSize)) (comma _ ?_)
    refine ascii_append _ _ (ascii_append _ _ chunksKey.2 (colon _ ?_)) (comma _ ?_)
    · rw [writeJson]
      exact ascii_append _ _ (ascii_cons _ _ (by decide) plainChunks) (ascii_cons _ _ (by decide) (List.forall_mem_nil _))
    · refine ascii_append _ _ (ascii_append _ _ digestKey.2 (colon _ ?_)) (comma _ ?_)
      · rw [writeJson]
        exact plainDigest
      · exact ascii_append _ _ schemaKey.2 (colon _ plainSchema)
  rw [canonicalJson, utf8_ascii _ plain, manifest_sorted, chunkManifest, writeJson, writeFields, writeFields,
    writeFields, writeFields, writeFields]
  simp only [writeJson, List.length_append, List.length_cons, List.length_nil] at total size schema ⊢
  omega

end Manifest

end SessionSync.Storage
