import SessionSync.Server.ObjectStore

set_option autoImplicit false

namespace SessionSync.Server

open SessionSync.Core Checked Storage

-- A handler begins with the request that the extractors made of a body within the limit.
abbrev Handler (α : Type) := Prog ServerState HttpError α

-- One transaction of the metadata store at the time its clock shows.
def transaction {α : Type} (run : Nanos → Database → Except MetadataError (Database × α)) : Handler α :=
  Prog.transact fun state =>
    match run state.clock state.db with
    | .ok (db, value) => .ok (value, { state with db := db })
    | .error error => .error (.metadata error)

def invalidRequest {α : Type} (result : Except String α) : Except HttpError α := result.mapError .invalidRequest

def ensureTypedObject (env : ServerEnv) (files : Std.ExtTreeMap ObjectKey Bytes) (object : StorageObjectRef) :
    Except HttpError Unit := do
  let absent ← (missing env files object).mapError .objectStore
  ensure (absent = []) (.missingObjects absent)

def readTypedJson {τ : Type} (env : ServerEnv) (decode : Bytes → Except String τ) (encode : τ → Value)
    (files : Std.ExtTreeMap ObjectKey Bytes) (key : ObjectKey) : Except HttpError (τ × StorageObjectRef) := do
  let bytes ← (openDownload env files key).mapError .objectStore
  ensure (digestBytes env.lib bytes = key.2) (.invalidRequest "typed structured object hash mismatch")
  let value ← invalidRequest (decode bytes)
  ensure (canonicalJson env.lib (encode value) = bytes) (.invalidRequest "typed structured object is not canonical JSON")
  return (value, { kind := key.1, sha256 := key.2, byteLength := fileLength bytes })

def readRevisionRoot (env : ServerEnv) (files : Std.ExtTreeMap ObjectKey Bytes) (sha256 : String) :
    Except HttpError (RevisionRootV4 × StorageObjectRef) :=
  readTypedJson env env.serde.revisionRoot RevisionRootV4.toValue files (.revisionRoot, sha256)

def readDescriptor (env : ServerEnv) (files : Std.ExtTreeMap ObjectKey Bytes) (sha256 : String) :
    Except HttpError (SemanticThreadDescriptorV4 × StorageObjectRef) :=
  readTypedJson env env.serde.descriptor SemanticThreadDescriptorV4.toValue files (.thread, sha256)

def readManifest (env : ServerEnv) (files : Std.ExtTreeMap ObjectKey Bytes) (sha256 : String) :
    Except HttpError (ChunkManifestV4 × StorageObjectRef) :=
  readTypedJson env env.serde.manifest ChunkManifestV4.toValue files (.chunkManifest, sha256)

def chunkObject (chunk : ChunkDescriptorV4) : StorageObjectRef :=
  { kind := .chunk, sha256 := chunk.sha256, byteLength := chunk.byteLength }

def checkManifest (content : ContentRefV4) (manifest : ChunkManifestV4) : Except HttpError Unit := do
  invalidRequest manifest.validate
  ensure (manifest.logicalSha256 = content.logicalSha256 ∧ manifest.byteLength = content.byteLength)
    (.invalidRequest "v4 chunk manifest identity mismatch")

def ensureChunks (env : ServerEnv) : List StorageObjectRef → Handler Unit
  | [] => return
  | chunk :: rest => do
      Prog.read fun state => ensureTypedObject env state.files chunk
      ensureChunks env rest

def replaceEdges (owner : StorageObjectRef) (targets : List StorageObjectRef) : Handler Unit :=
  transaction fun _ db => do
    let db ← replaceObjectEdges owner targets db
    return (db, ())

def validateContentGraphV4 (env : ServerEnv) (content : ContentRefV4) : Handler (List StorageObjectRef) :=
  match content.storage with
  | .whole objectSha256 => do
      let object : StorageObjectRef := { kind := .whole, sha256 := objectSha256, byteLength := content.byteLength }
      Prog.read fun state => ensureTypedObject env state.files object
      return [object]
  | .chunked manifestSha256 => do
      let (manifest, manifestObject) ← Prog.read fun state => readManifest env state.files manifestSha256
      Prog.ofExcept (checkManifest content manifest)
      let chunks := manifest.chunks.map chunkObject
      ensureChunks env chunks
      replaceEdges manifestObject chunks
      return manifestObject :: chunks

def validateContentsV4 (env : ServerEnv) : List ContentRefV4 → Handler (List StorageObjectRef)
  | [] => return []
  | content :: rest => do
      let targets ← validateContentGraphV4 env content
      let later ← validateContentsV4 env rest
      return targets ++ later

-- The BTreeMap that collects the graph, one entry a typed object.
abbrev Graph := Std.ExtTreeMap ObjectKey StorageObjectRef

def insertObjects (graph : Graph) (objects : List StorageObjectRef) : Graph :=
  objects.foldl (fun graph object => graph.insert object.key object) graph

def checkDescriptor (reference : ThreadRefV4) (descriptor : SemanticThreadDescriptorV4) : Except HttpError Unit := do
  invalidRequest descriptor.validate
  ensure (descriptor.threadId = reference.threadId) (.invalidRequest "v4 thread reference ID does not match descriptor")

def validateThreadsV4 (env : ServerEnv) : List ThreadRefV4 → Graph → Handler (List StorageObjectRef × Graph)
  | [], graph => return ([], graph)
  | reference :: rest, graph => do
      let (descriptor, object) ← Prog.read fun state => readDescriptor env state.files reference.descriptorSha256
      Prog.ofExcept (checkDescriptor reference descriptor)
      let targets ← validateContentsV4 env descriptor.contents
      replaceEdges object targets
      let (later, graph) ← validateThreadsV4 env rest (insertObjects graph (object :: targets))
      return (object :: later, graph)

def checkRevisionRoot (env : ServerEnv) (revisionId : String) (root : RevisionRootV4) : Except HttpError Unit := do
  invalidRequest root.validate
  let id ← invalidRequest (root.revisionId env.lib)
  ensure (id = revisionId) (.invalidRequest "v4 revision root hash is not canonical")

def validateRevisionGraphV4 (env : ServerEnv) (revisionId : String) : Handler (RevisionRootV4 × List StorageObjectRef) := do
  let (root, object) ← Prog.read fun state => readRevisionRoot env state.files revisionId
  Prog.ofExcept (checkRevisionRoot env revisionId root)
  let (targets, graph) ← validateThreadsV4 env root.threads (insertObjects ∅ [object])
  replaceEdges object targets
  return (root, Keyed.values graph)

structure RevisionCommitRequestV4 where
  expectedHead : Option String
  expectedNamespaceEpoch : UInt64
  revision : RevisionRootV4
deriving DecidableEq, Repr

structure RevisionCommitResponseV4 where
  namespaceId : Uuid
  head : String
  created : Bool
  namespaceEpoch : UInt64
deriving DecidableEq, Repr

-- RevisionValidationErrorV4 with the texts it prints. `debug` is Rust's {:?}.
def RevisionCommitRequestV4.validate (env : ServerEnv) (debug : Option String → String) (payload : RevisionCommitRequestV4) :
    Except String String := do
  payload.revision.validate.mapError fun error => "invalid v4 revision root: " ++ error
  let actual ← (payload.revision.revisionId env.lib).mapError fun error => "invalid v4 revision root: " ++ error
  ensure (payload.expectedHead = payload.revision.parentRevision)
    ("expected head " ++ debug payload.expectedHead ++ " must equal revision parent " ++ debug payload.revision.parentRevision)
  match payload.expectedHead with
  | some head => (validateSha256V4 head).mapError fun _ => "invalid v4 expected head: " ++ head
  | none => pure ()
  return actual

def NewRevisionMetadata.fromRevisionRootV4 (env : ServerEnv) (root : RevisionRootV4) (rootByteLength : UInt64)
    (graph : List StorageObjectRef) : Except MetadataError NewRevisionMetadata := do
  root.validate.mapError fun _ => conflict "invalid-v4-revision-root"
  let id ← (root.revisionId env.lib).mapError fun _ => conflict "invalid-v4-revision-root"
  let totalBytes ← found (checkedSum (graph.map (·.byteLength)) 0) (conflict id)
  return { id := id
           namespaceId := root.namespaceId
           parentRevision := root.parentRevision
           createdAt := root.createdAt
           manifestByteLength := rootByteLength
           threadCount := UInt64.ofNat root.threads.length
           objects := []
           objectCountOverride := some (UInt64.ofNat graph.length)
           totalBytesOverride := some totalBytes
           rootSchemaVersion := 4 }

def commitRevisionRootV4 (env : ServerEnv) (debug : Option String → String) (namespaceId : Uuid) (payload : RevisionCommitRequestV4) :
    Handler RevisionCommitResponseV4 := do
  let revisionId ← Prog.ofExcept (invalidRequest (payload.validate env debug))
  Prog.ofExcept (ensure (payload.revision.namespaceId = namespaceId)
    (.invalidRequest "v4 revision namespaceId must match the namespace route"))
  let (root, graph) ← validateRevisionGraphV4 env revisionId
  Prog.ofExcept (ensure (root = payload.revision) (.invalidRequest "uploaded v4 revision root does not match commit payload"))
  let rootObject ← Prog.ofExcept (found (graph.find? fun object => object.kind = .revisionRoot)
    (.invalidRequest "validated v4 graph has no revision root"))
  let metadata ← Prog.ofExcept ((NewRevisionMetadata.fromRevisionRootV4 env root rootObject.byteLength graph).mapError fun error =>
    .invalidRequest (error.text debug "database error"))
  let (outcome, namespaceEpoch) ← transaction fun _ db =>
    commitRevisionRoot env.lib payload.expectedHead payload.expectedNamespaceEpoch metadata db
  return { namespaceId := namespaceId
           head := revisionId
           created := outcome = .created
           namespaceEpoch := namespaceEpoch }

def putTypedObject (env : ServerEnv) (key : ObjectKey) (expectedLength : UInt64) (stream : List Bytes) : Handler Bool := do
  Prog.ofExcept (ensure (validSha256 key.2 = true) (.invalidDigest "invalid SHA-256 digest"))
  Prog.ofExcept (ensure (expectedLength ≤ key.1.maxBytes) (.payloadTooLarge "typed object exceeds its kind limit"))
  let created ← (putStream env key expectedLength stream).mapError .objectStore
  transaction fun now db => do
    let db ← recordStorageObject { kind := key.1, sha256 := key.2, byteLength := expectedLength } now db
    return (db, ())
  return created

def gcDestination (entry : GcQueueEntry) : Except HttpError Unit :=
  ensure ("sha256:".toList.isPrefixOf entry.object.sha256.toList = true) (.invalidDigest "invalid queued object digest")

def purgeGcEntry (entry : GcQueueEntry) : Handler Unit := do
  Prog.ofExcept (gcDestination entry)
  let _ ← (purgeQuarantined entry.operationId entry.object.key entry.object.byteLength).mapError .objectStore
  transaction fun _ db => .ok (Server.markGcEntryPurged entry.id db, ())

-- u64::saturating_add.
def saturatingAdd (a b : UInt64) : UInt64 := if a.toNat + b.toNat < 2 ^ 64 then a + b else 0xFFFFFFFFFFFFFFFF

def processGcEntries : List GcQueueEntry → Nat → UInt64 → Handler (Nat × UInt64)
  | [], count, bytes => return (count, bytes)
  | entry :: rest, count, bytes => do
      let reachable ← transaction fun now db => .ok (db, gcObjectIsReachable db now entry.object)
      if reachable then
        transaction fun _ db => .ok (Server.cancelGcEntry entry.id db, ())
        processGcEntries rest count bytes
      else
        Prog.ofExcept (gcDestination entry)
        let _ ← (quarantine entry.operationId entry.object.key).mapError .objectStore
        transaction fun now db => .ok (Server.completeGcEntry entry now db, ())
        if entry.deleteAfterQuarantine then purgeGcEntry entry
        processGcEntries rest (count + 1) (saturatingAdd bytes entry.object.byteLength)

def purgeGcEntries : List GcQueueEntry → Handler Unit
  | [] => return
  | entry :: rest => do
      purgeGcEntry entry
      purgeGcEntries rest

def resumePendingGc : Handler Unit := do
  let pending ← transaction fun _ db => .ok (db, pendingGcEntries db)
  let _ ← processGcEntries pending 0 0
  let quarantined ← transaction fun _ db => .ok (db, quarantinedGcEntriesForPurge db)
  purgeGcEntries quarantined

structure ServerGcQuarantineResponse where
  operationId : Uuid
  quarantinedObjectCount : Nat
  quarantinedBytes : UInt64
deriving DecidableEq, Repr

def quarantineServerGc (env : ServerEnv) (planFingerprint : String) (operationId : Uuid) (ids : Nat → Uuid) :
    Handler ServerGcQuarantineResponse := do
  Prog.ofExcept (ensure (validSha256 planFingerprint = true) (.invalidDigest "invalid GC plan fingerprint"))
  let (operationId, entries) ← transaction fun now db => Server.enqueueGc env.lib planFingerprint operationId ids now db
  let (count, bytes) ← processGcEntries entries 0 0
  return { operationId := operationId, quarantinedObjectCount := count, quarantinedBytes := bytes }

structure PurgeHistoryTrashResponse where
  purgedOperationCount : Nat
  purgedRevisionCount : Nat
  deletedObjectCount : Nat
  reclaimedBytes : UInt64
deriving DecidableEq, Repr

def purgeHistoryTrash (namespaceId : Uuid) (operationIds : List Uuid) (purgeAll : Bool) (operationId : Uuid) (ids : Nat → Uuid) :
    Handler PurgeHistoryTrashResponse := do
  Prog.ofExcept (ensure (purgeAll = operationIds.isEmpty) (.invalidRequest "provide operationIds or set purgeAll, but not both"))
  let plan ← transaction fun _ db => do
    let plan ← buildHistoryTrashPurgePlan namespaceId operationIds purgeAll db
    return (db, plan)
  let (committed, entries) ← transaction fun now db => commitHistoryTrashPurge namespaceId plan operationId ids now db
  let (count, bytes) ← processGcEntries entries 0 0
  return { purgedOperationCount := committed.operationIds.length
           purgedRevisionCount := committed.revisionCount
           deletedObjectCount := count
           reclaimedBytes := bytes }

def validHead (message : String) (head : Option String) : Except HttpError Unit :=
  ensure (∀ id ∈ head, validSha256 id = true) (.invalidDigest message)

def Api.truncateHistory (namespaceId : Uuid) (expectedHead : Option String) (expectedEpoch : UInt64) (newHead : Option String)
    (operationId : Uuid) : Handler HistoryTrashOperation := do
  Prog.ofExcept (validHead "invalid expected Head" expectedHead)
  Prog.ofExcept (validHead "invalid new Head" newHead)
  transaction fun now db => Server.truncateHistory namespaceId expectedHead expectedEpoch newHead operationId now db

def Api.restoreHistoryTrash (namespaceId operationId : Uuid) (expectedHead : Option String) (expectedEpoch : UInt64) :
    Handler HistoryTrashOperation := do
  Prog.ofExcept (validHead "invalid expected Head" expectedHead)
  transaction fun now db => Server.restoreHistoryTrash namespaceId operationId expectedHead expectedEpoch now db

def Api.createNamespace (displayName : String) (id : Uuid) : Handler Uuid :=
  transaction fun _ db => Server.createNamespace displayName id db

def Api.renameNamespace (namespaceId : Uuid) (displayName : String) : Handler Uuid :=
  transaction fun _ db => Server.renameNamespace namespaceId displayName db

end SessionSync.Server
