import SessionSync.Storage.Content

set_option autoImplicit false

namespace SessionSync.Storage

open SessionSync.Core Checked

-- The older store lies in the same directories; what it reads it hashes at once.
def typedObject (files : Files) (kind : StorageObjectKindV4) (sha256 : String) : Except String Bytes := do
  ensure (validSha256 sha256 = true) ("invalid SHA-256 identifier " ++ sha256)
  found files[((kind, sha256) : ObjectName)]? "missing storage object"

def maxLogicalContentBytes : UInt64 := 64 * 1024 * 1024 * 1024

def maxChunkBytes : UInt64 := 8 * 1024 * 1024

def maxChunksPerContent : Nat := 16384

def maxStructuredObjectBytes : UInt64 := 16 * 1024 * 1024

def storageHash : StorageRefV4 → String
  | .whole object => object
  | .chunked manifest => manifest

@[irreducible] def validateContentRef (content : ContentRefV4) : Except String Unit := do
  ensure (validSha256 content.logicalSha256 = true) "invalid logical content hash"
  ensure (content.byteLength ≤ maxLogicalContentBytes) "content exceeds the logical-length limit"
  ensure (validSha256 (storageHash content.storage) = true) "invalid storage object hash"
  match content.storage with
  | .whole object => ensure (object = content.logicalSha256) "whole object hash must equal the logical content hash"
  | .chunked _ => pure ()

def validateChunksV3 (chunkSize : UInt32) (index : Nat) : List ChunkDescriptorV4 → UInt64 → Except String UInt64
  | [], total => .ok total
  | chunk :: rest, total => do
      ensure (validSha256 chunk.sha256 = true) "invalid chunk hash"
      ensure (chunk.byteLength ≠ 0 ∧ chunk.byteLength ≤ chunkSize.toUInt64) ("invalid chunk length at index " ++ toString index)
      ensure (rest = [] ∨ chunk.byteLength = chunkSize.toUInt64) "only the final chunk may be shorter than chunkSize"
      ensure (total.toNat + chunk.byteLength.toNat < 2 ^ 64) "chunk length overflow"
      validateChunksV3 chunkSize (index + 1) rest (total + chunk.byteLength)

def validateChunkManifest (manifest : ChunkManifestV4) : Except String Unit := do
  ensure (manifest.schemaVersion = 1 ∨ manifest.schemaVersion = 4)
    ("unsupported chunk manifest schema version " ++ toString manifest.schemaVersion.toNat)
  ensure (validSha256 manifest.logicalSha256 = true) "invalid logical content hash"
  ensure (manifest.chunkSize ≠ 0 ∧ manifest.chunkSize.toUInt64 ≤ maxChunkBytes)
    ("invalid chunk size " ++ toString manifest.chunkSize.toNat)
  ensure (manifest.chunks.length ≤ maxChunksPerContent) "chunk manifest exceeds the chunk-count limit"
  ensure (manifest.byteLength ≤ maxLogicalContentBytes) "chunk manifest exceeds the logical-length limit"
  ensure (manifest.byteLength ≠ 0 ∨ manifest.chunks = []) "empty content must not contain chunks"
  ensure (manifest.byteLength = 0 ∨ manifest.chunks ≠ []) "non-empty content must contain at least one chunk"
  let total ← validateChunksV3 manifest.chunkSize 0 manifest.chunks 0
  ensure (total = manifest.byteLength) "chunk lengths do not sum to the logical content length"

section Read

variable (lib : Primitives) (serde : Decoders) (files : Files)

def loadChunkManifest (sha256 : String) : Except String ChunkManifestV4 := do
  let bytes ← typedObject files .chunkManifest sha256
  ensure (fileLength bytes ≤ maxStructuredObjectBytes) "invalid or oversized storage object"
  ensure (digestBytes lib bytes = sha256) "storage object hash mismatch"
  let manifest ← (serde.manifest bytes).mapError fun error => "failed to parse chunkManifest object " ++ sha256 ++ ": " ++ error
  validateChunkManifest manifest
  return manifest

def copyValidatedPart (kind : StorageObjectKindV4) (expectedHash : String) (expectedLength : UInt64) : Except String Bytes := do
  let bytes ← typedObject files kind expectedHash
  ensure (fileLength bytes ≤ expectedLength) "storage object is longer than declared"
  ensure (fileLength bytes = expectedLength ∧ digestBytes lib bytes = expectedHash) "storage object failed hash or length validation"
  return bytes

def copyChunks : List ChunkDescriptorV4 → Except String Bytes
  | [] => .ok []
  | chunk :: rest => do
      let bytes ← copyValidatedPart lib files .chunk chunk.sha256 chunk.byteLength
      let others ← copyChunks rest
      return bytes ++ others

-- What FilesystemContentStore::materialize has written when it renames its file.
@[irreducible] def contentV3 (content : ContentRefV4) : Except String Bytes := do
  let bytes ←
    match content.storage with
    | .whole object => copyValidatedPart lib files .whole object content.byteLength
    | .chunked name => do
        let manifest ← loadChunkManifest lib serde files name
        ensure (manifest.logicalSha256 = content.logicalSha256 ∧ manifest.byteLength = content.byteLength)
          "chunk manifest does not match content reference"
        copyChunks lib files manifest.chunks
  ensure (fileLength bytes = content.byteLength ∧ digestBytes lib bytes = content.logicalSha256)
    "materialized content failed logical hash or length validation"
  return bytes

-- repository_object_path, and the read of the file it names.
@[irreducible] def repositoryObject (v4 : Bool) (sha256 : String) : Except String Bytes :=
  if v4 then do
    validateSha256V4 sha256
    match files[((.chunk, sha256) : ObjectName)]? with
    | some bytes => return bytes
    | none => typedObject files .whole sha256
  else typedObject files .whole sha256

end Read

end SessionSync.Storage
