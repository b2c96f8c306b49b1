import SessionSync.Core.Models
import SessionSync.Lib.Checked

set_option autoImplicit false

namespace SessionSync.Storage

open SessionSync.Core Checked

-- A file's length as the u64 that its metadata reports.
def fileLength (bytes : Bytes) : UInt64 := UInt64.ofNat bytes.length

inductive StorageRefV4 where
  | whole (objectSha256 : String)
  | chunked (manifestSha256 : String)
deriving DecidableEq, Repr

structure ContentRefV4 where
  logicalSha256 : String
  byteLength : UInt64
  storage : StorageRefV4
  mediaType : String
  logicalPath : Option String
deriving DecidableEq, Repr

structure SemanticWorkspaceV4 where
  logicalId : Option String
  canonicalHint : Option String
deriving DecidableEq, Repr

structure SemanticThreadDescriptorV4 where
  schemaVersion : UInt32
  normalizationSchemaVersion : UInt32
  threadId : String
  title : String
  archived : Bool
  createdAtMs : Option Int64
  updatedAtMs : Option Int64
  semanticWorkspace : SemanticWorkspaceV4
  rollout : ContentRefV4
  relatedRecords : Std.ExtTreeMap String (List Value)
  attachments : List ContentRefV4

structure LocalThreadOverlayV4 where
  observedProvider : Option String
  localWorkspacePath : Option String
  localRolloutPath : Option String
  sourceDatabaseHints : List String
  localFields : Std.ExtTreeMap String Value

structure SnapshotOverlayV4 where
  schemaVersion : UInt32
  normalizationSchemaVersion : UInt32
  threads : Std.ExtTreeMap String LocalThreadOverlayV4

structure ThreadRefV4 where
  threadId : String
  descriptorSha256 : String
deriving DecidableEq, Repr

structure SnapshotRootV4 where
  schemaVersion : UInt32
  normalizationSchemaVersion : UInt32
  snapshotId : String
  createdAt : String
  threads : List ThreadRefV4
  overlaySha256 : String
  warningCount : UInt64
deriving DecidableEq, Repr

structure RevisionRootV4 where
  schemaVersion : UInt32
  normalizationSchemaVersion : UInt32
  namespaceId : Uuid
  parentRevision : Option String
  createdAt : String
  threads : List ThreadRefV4
  warningCount : UInt64
deriving DecidableEq, Repr

structure ChunkDescriptorV4 where
  sha256 : String
  byteLength : UInt64
deriving DecidableEq, Repr

structure ChunkManifestV4 where
  schemaVersion : UInt32
  logicalSha256 : String
  byteLength : UInt64
  chunkSize : UInt32
  chunks : List ChunkDescriptorV4
deriving DecidableEq, Repr

-- serde_json::from_slice at the types that are read back, with the text of its
-- error. Nothing is assumed about it.
structure Decoders where
  revisionRoot : Bytes → Except String RevisionRootV4
  descriptor : Bytes → Except String SemanticThreadDescriptorV4
  manifest : Bytes → Except String ChunkManifestV4
  overlay : Bytes → Except String SnapshotOverlayV4
  snapshotRoot : Bytes → Except String SnapshotRootV4

-- The tag is "kind"; the field of a variant keeps its own name.
def StorageRefV4.toValue : StorageRefV4 → Value
  | .whole object => .object [("kind", .string "whole"), ("object_sha256", .string object)]
  | .chunked manifest => .object [("kind", .string "chunked"), ("manifest_sha256", .string manifest)]

def ContentRefV4.toValue (content : ContentRefV4) : Value :=
  .object [("logicalSha256", .string content.logicalSha256), ("byteLength", .nat content.byteLength),
    ("storage", content.storage.toValue), ("mediaType", .string content.mediaType),
    ("logicalPath", .option .string content.logicalPath)]

def SemanticWorkspaceV4.toValue (workspace : SemanticWorkspaceV4) : Value :=
  .object [("logicalId", .option .string workspace.logicalId), ("canonicalHint", .option .string workspace.canonicalHint)]

def SemanticThreadDescriptorV4.toValue (descriptor : SemanticThreadDescriptorV4) : Value :=
  .object [("schemaVersion", .nat descriptor.schemaVersion.toUInt64),
    ("normalizationSchemaVersion", .nat descriptor.normalizationSchemaVersion.toUInt64),
    ("threadId", .string descriptor.threadId), ("title", .string descriptor.title), ("archived", .bool descriptor.archived),
    ("createdAtMs", .option .int descriptor.createdAtMs), ("updatedAtMs", .option .int descriptor.updatedAtMs),
    ("semanticWorkspace", descriptor.semanticWorkspace.toValue), ("rollout", descriptor.rollout.toValue),
    ("relatedRecords", .object (descriptor.relatedRecords.toList.map fun table => (table.1, .array table.2))),
    ("attachments", .array (descriptor.attachments.map ContentRefV4.toValue))]

def ThreadRefV4.toValue (thread : ThreadRefV4) : Value :=
  .object [("threadId", .string thread.threadId), ("descriptorSha256", .string thread.descriptorSha256)]

def LocalThreadOverlayV4.toValue (overlay : LocalThreadOverlayV4) : Value :=
  .object [("observedProvider", .option .string overlay.observedProvider),
    ("localWorkspacePath", .option .string overlay.localWorkspacePath),
    ("localRolloutPath", .option .string overlay.localRolloutPath),
    ("sourceDatabaseHints", .array (overlay.sourceDatabaseHints.map .string)), ("localFields", .object overlay.localFields.toList)]

def SnapshotOverlayV4.toValue (overlay : SnapshotOverlayV4) : Value :=
  .object [("schemaVersion", .nat overlay.schemaVersion.toUInt64),
    ("normalizationSchemaVersion", .nat overlay.normalizationSchemaVersion.toUInt64),
    ("threads", .object (overlay.threads.toList.map fun thread => (thread.1, thread.2.toValue)))]

def SnapshotRootV4.toValue (root : SnapshotRootV4) : Value :=
  .object [("schemaVersion", .nat root.schemaVersion.toUInt64),
    ("normalizationSchemaVersion", .nat root.normalizationSchemaVersion.toUInt64), ("snapshotId", .string root.snapshotId),
    ("createdAt", .string root.createdAt), ("threads", .array (root.threads.map ThreadRefV4.toValue)),
    ("overlaySha256", .string root.overlaySha256), ("warningCount", .nat root.warningCount)]

def RevisionRootV4.toValue (root : RevisionRootV4) : Value :=
  .object [("schemaVersion", .nat root.schemaVersion.toUInt64),
    ("normalizationSchemaVersion", .nat root.normalizationSchemaVersion.toUInt64),
    ("namespaceId", .string root.namespaceId.text), ("parentRevision", .option .string root.parentRevision),
    ("createdAt", .string root.createdAt), ("threads", .array (root.threads.map ThreadRefV4.toValue)),
    ("warningCount", .nat root.warningCount)]

def ChunkDescriptorV4.toValue (chunk : ChunkDescriptorV4) : Value :=
  .object [("sha256", .string chunk.sha256), ("byteLength", .nat chunk.byteLength)]

def ChunkManifestV4.toValue (manifest : ChunkManifestV4) : Value :=
  .object [("schemaVersion", .nat manifest.schemaVersion.toUInt64), ("logicalSha256", .string manifest.logicalSha256),
    ("byteLength", .nat manifest.byteLength), ("chunkSize", .nat manifest.chunkSize.toUInt64),
    ("chunks", .array (manifest.chunks.map ChunkDescriptorV4.toValue))]

-- validate_sha256_v4 and `thread.trim().is_empty()`, with the texts they fail with.
def validateSha256V4 (value : String) : Except String Unit := ensure (validSha256 value = true) "invalid SHA-256 identifier"

def validateThreadRefsV4 : List ThreadRefV4 → List String → Except String Unit
  | [], _ => .ok ()
  | thread :: rest, ids => do
      ensure (isBlank thread.threadId = false) "thread ID must not be empty"
      validateSha256V4 thread.descriptorSha256
      ensure (thread.threadId ∉ ids) ("duplicate thread ID " ++ thread.threadId)
      validateThreadRefsV4 rest (thread.threadId :: ids)

def SnapshotRootV4.validate (root : SnapshotRootV4) : Except String Unit := do
  ensure (root.schemaVersion = 4 ∧ root.normalizationSchemaVersion = 1) "unsupported v4 snapshot root schema"
  validateThreadRefsV4 root.threads []

def RevisionRootV4.validate (root : RevisionRootV4) : Except String Unit := do
  ensure (root.schemaVersion = 4 ∧ root.normalizationSchemaVersion = 1) "unsupported v4 revision root schema"
  ensure (root.namespaceId.version = 7) "namespace ID must be UUIDv7"
  match root.parentRevision with
  | some parent => validateSha256V4 parent
  | none => pure ()
  validateThreadRefsV4 root.threads []

def RevisionRootV4.revisionId (lib : Primitives) (root : RevisionRootV4) : Except String String := do
  root.validate
  return digestBytes lib (canonicalJson lib root.toValue)

def validateContentRefV4 (content : ContentRefV4) : Except String Unit := do
  validateSha256V4 content.logicalSha256
  ensure (isBlank content.mediaType = false) "content media type must not be empty"
  match content.storage with
  | .whole object => validateSha256V4 object
  | .chunked manifest => validateSha256V4 manifest

def validateContentRefsV4 : List ContentRefV4 → Except String Unit
  | [] => .ok ()
  | content :: rest => do
      validateContentRefV4 content
      validateContentRefsV4 rest

-- The rollout first, then the attachments.
def SemanticThreadDescriptorV4.contents (descriptor : SemanticThreadDescriptorV4) : List ContentRefV4 :=
  descriptor.rollout :: descriptor.attachments

def SemanticThreadDescriptorV4.validate (descriptor : SemanticThreadDescriptorV4) : Except String Unit := do
  ensure (descriptor.schemaVersion = 4 ∧ descriptor.normalizationSchemaVersion = 1) "unsupported v4 semantic descriptor schema"
  ensure (isBlank descriptor.threadId = false) "v4 semantic descriptor has an empty thread ID"
  ensure (isBlank descriptor.rollout.mediaType = false) "v4 semantic descriptor has an empty rollout media type"
  validateContentRefsV4 descriptor.contents
  ensure (descriptor.relatedRecords.contains "thread_timeline_ledger" = false)
    "thread_timeline_ledger is not part of the v4 semantic model"

def chunkSizeV4 : UInt32 := 4 * 1024 * 1024

-- The loop over the chunks: every chunk but the last one is full.
def validateChunks (chunkSize : UInt32) : List ChunkDescriptorV4 → UInt64 → Except String UInt64
  | [], total => .ok total
  | chunk :: rest, total => do
      validateSha256V4 chunk.sha256
      ensure (rest = [] ∨ chunk.byteLength = chunkSize.toUInt64) "non-final chunk has an invalid length"
      ensure (chunk.byteLength ≠ 0 ∧ chunk.byteLength ≤ chunkSize.toUInt64) "chunk has an invalid length"
      ensure (total.toNat + chunk.byteLength.toNat < 2 ^ 64) "chunk length overflow"
      validateChunks chunkSize rest (total + chunk.byteLength)

def ChunkManifestV4.validate (manifest : ChunkManifestV4) : Except String Unit := do
  ensure (manifest.schemaVersion = 4 ∧ manifest.chunkSize ≠ 0 ∧ manifest.chunkSize ≤ chunkSizeV4) "unsupported v4 chunk manifest"
  validateSha256V4 manifest.logicalSha256
  let total ← validateChunks manifest.chunkSize manifest.chunks 0
  ensure (total = manifest.byteLength) "chunk manifest length mismatch"
  ensure (manifest.byteLength ≠ 0 ∨ manifest.chunks = []) "empty content cannot have chunks"

def SnapshotOverlayV4.validate (overlay : SnapshotOverlayV4) : Except String Unit :=
  ensure (overlay.schemaVersion = 4 ∧ overlay.normalizationSchemaVersion = 1) "unsupported v4 snapshot overlay schema"

end SessionSync.Storage
