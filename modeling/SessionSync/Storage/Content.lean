import SessionSync.Storage.Repository

set_option autoImplicit false

namespace SessionSync.Storage

open SessionSync.Core Checked

variable (lib : Primitives) (serde : Decoders)

def readChunks (files : Files) : List ChunkDescriptorV4 → Except String Bytes
  | [] => .ok []
  | chunk :: rest => do
      let bytes ← objectFile files .chunk chunk.sha256
      ensure (fileLength bytes = chunk.byteLength ∧ digestBytes lib bytes = chunk.sha256) "storage object chunk validation failed"
      let others ← readChunks files rest
      return bytes ++ others

-- What FilesystemContentStoreV4::materialize writes: a whole object is not hashed again.
def materializeContent (files : Files) (content : ContentRefV4) : Except String Bytes :=
  match content.storage with
  | .whole object => objectFile files .whole object
  | .chunked name => do
      let manifest ← readJson lib serde.manifest files .chunkManifest name
      manifest.validate
      readChunks lib files manifest.chunks

def readWhole (files : Files) (object : String) : Except String Bytes := do
  let bytes ← objectFile files .whole object
  ensure (digestBytes lib bytes = object) "storage object whole hash mismatch"
  return bytes

def validateContent (files : Files) (content : ContentRefV4) : Except String Unit := do
  let bytes ←
    match content.storage with
    | .whole object => readWhole lib files object
    | .chunked _ => materializeContent lib serde files content
  ensure (fileLength bytes = content.byteLength ∧ digestBytes lib bytes = content.logicalSha256)
    "v4 logical content hash or length mismatch"

end SessionSync.Storage
