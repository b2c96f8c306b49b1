import SessionSync.Server.Calls
import SessionSync.Storage.Objects
import SessionSync.Lib.Prog

set_option autoImplicit false

namespace SessionSync.Server

open SessionSync.Core Checked Storage

-- What a server is started with: the code of other crates and its object limit.
structure ServerEnv where
  lib : Primitives
  serde : Decoders
  maxObjectBytes : UInt64

instance placeTrans : Std.TransOrd (Uuid × ObjectKey) := inferInstance

-- typed/<kind>/objects/sha256, gc/<operation>/<kind> and the database beside them.
structure ServerState where
  db : Database
  files : Std.ExtTreeMap ObjectKey Bytes
  gcFiles : Std.ExtTreeMap (Uuid × ObjectKey) Bytes
  clock : Nanos

inductive ObjectStoreError where
  | invalidDigest (digest : String)
  | objectTooLarge (maxBytes actualBytes : UInt64)
  | lengthMismatch (expectedBytes actualBytes : UInt64)
  | hashMismatch (expected actual : String)
  | notFound (digest : String)
  | io (operation : String)
deriving DecidableEq, Repr

inductive HttpError where
  | invalidRequest (message : String)
  | invalidDigest (message : String)
  | payloadTooLarge (message : String)
  | missingObjects (digests : List String)
  | objectStore (error : ObjectStoreError)
  | metadata (error : MetadataError)
deriving DecidableEq, Repr

def StorageObjectKind.maxBytes : StorageObjectKind → UInt64
  | .whole => 64 * 1024 * 1024 * 1024
  | .chunk => 8 * 1024 * 1024
  | .chunkManifest | .thread | .revisionRoot => 16 * 1024 * 1024

def ServerEnv.limit (env : ServerEnv) (kind : StorageObjectKind) : UInt64 := min kind.maxBytes env.maxObjectBytes

def objectPath (digest : String) : Except ObjectStoreError Unit := ensure (validSha256 digest = true) (.invalidDigest digest)

-- The chunks of the request body go to a temporary file that nobody else sees.
def writeVerifiedTemp (env : ServerEnv) (limit expectedLength : UInt64) (digest : String) :
    List Bytes → Bytes → Except ObjectStoreError Bytes
  | [], received => do
      ensure (fileLength received = expectedLength) (.lengthMismatch expectedLength (fileLength received))
      ensure (digestBytes env.lib received = digest) (.hashMismatch digest (digestBytes env.lib received))
      return received
  | chunk :: rest, received => do
      let received := received ++ chunk
      ensure (received.length < 2 ^ 64) (.objectTooLarge limit 0xFFFFFFFFFFFFFFFF)
      ensure (fileLength received ≤ limit) (.objectTooLarge limit (fileLength received))
      ensure (fileLength received ≤ expectedLength) (.lengthMismatch expectedLength (fileLength received))
      writeVerifiedTemp env limit expectedLength digest rest received

def verifyFile (env : ServerEnv) (key : ObjectKey) (expectedLength : UInt64) (files : Std.ExtTreeMap ObjectKey Bytes) :
    Except ObjectStoreError Unit := do
  let bytes ← found files[key]? (.io "open")
  ensure (fileLength bytes ≤ env.limit key.1) (.objectTooLarge (env.limit key.1) (fileLength bytes))
  ensure (fileLength bytes = expectedLength) (.lengthMismatch expectedLength (fileLength bytes))
  ensure (digestBytes env.lib bytes = key.2) (.hashMismatch key.2 (digestBytes env.lib bytes))

-- The rename as the comment beside it has it: a target that is there stays. Where
-- it is replaced instead, the new file has the same digest.
def renameInto (key : ObjectKey) (bytes : Bytes) (state : ServerState) : Bool × ServerState :=
  if state.files.contains key then (false, state) else (true, { state with files := state.files.insert key bytes })

def putStream (env : ServerEnv) (key : ObjectKey) (expectedLength : UInt64) (stream : List Bytes) :
    Prog ServerState ObjectStoreError Bool := do
  Prog.ofExcept (objectPath key.2)
  Prog.ofExcept (ensure (expectedLength ≤ env.limit key.1) (.objectTooLarge (env.limit key.1) expectedLength))
  let bytes ← Prog.ofExcept (writeVerifiedTemp env (env.limit key.1) expectedLength key.2 stream [])
  let present ← Prog.query fun state => state.files.contains key
  if present then
    Prog.read fun state => verifyFile env key expectedLength state.files
    return false
  let installed ← .act (renameInto key bytes) .ret
  if installed then return true
  let present ← Prog.query fun state => state.files.contains key
  Prog.ofExcept (ensure (present = true) (.io "atomically install"))
  Prog.read fun state => verifyFile env key expectedLength state.files
  return false

def missing (env : ServerEnv) (files : Std.ExtTreeMap ObjectKey Bytes) (object : StorageObjectRef) :
    Except ObjectStoreError (List String) := do
  objectPath object.sha256
  ensure (object.byteLength ≤ env.limit object.kind) (.objectTooLarge (env.limit object.kind) object.byteLength)
  match files[object.key]? with
  | none => return [object.sha256]
  | some bytes => do
      ensure (fileLength bytes = object.byteLength) (.lengthMismatch object.byteLength (fileLength bytes))
      return []

def openDownload (env : ServerEnv) (files : Std.ExtTreeMap ObjectKey Bytes) (key : ObjectKey) : Except ObjectStoreError Bytes := do
  objectPath key.2
  let bytes ← found files[key]? (.notFound key.2)
  ensure (fileLength bytes ≤ env.limit key.1) (.objectTooLarge (env.limit key.1) (fileLength bytes))
  return bytes

def quarantineFile (operationId : Uuid) (key : ObjectKey) (state : ServerState) : Bool × ServerState :=
  match state.files[key]? with
  | none => (state.gcFiles.contains (operationId, key), state)
  | some bytes => (true, { state with files := state.files.erase key, gcFiles := state.gcFiles.insert (operationId, key) bytes })

def quarantine (operationId : Uuid) (key : ObjectKey) : Prog ServerState ObjectStoreError Bool := do
  Prog.ofExcept (objectPath key.2)
  let present ← Prog.query fun state => state.files.contains key
  if present then .act (quarantineFile operationId key) .ret
  else Prog.query fun state => state.gcFiles.contains (operationId, key)

def purgeQuarantined (operationId : Uuid) (key : ObjectKey) (expectedLength : UInt64) : Prog ServerState ObjectStoreError Bool := do
  let metadata ← Prog.query fun state => state.gcFiles[(operationId, key)]?
  match metadata with
  | none => return false
  | some bytes => do
      Prog.ofExcept (ensure (fileLength bytes = expectedLength) (.lengthMismatch expectedLength (fileLength bytes)))
      Prog.update fun state => { state with gcFiles := state.gcFiles.erase (operationId, key) }
      return true

end SessionSync.Server
