import SessionSync.Server.ObjectStore
import SessionSync.Lib.Actions

set_option autoImplicit false

namespace SessionSync.Server.Uploads

open SessionSync.Core Checked Storage

-- Whether a rename replaces a target that is there or refuses to is the system's choice.
structure StoreEnv where
  lib : Primitives
  replaces : Bool

-- objects/sha256, objects/tmp, and the places files are quarantined to. Only the upload
-- that created a temporary file writes it: its content is what that upload received.
structure StoreState where
  objects : Std.ExtTreeMap String Bytes
  temporaries : Std.ExtTreeSet Uuid
  quarantined : Std.ExtTreeMap String Bytes

inductive UploadError where
  | store (error : ObjectStoreError)
  | stream (message : String)
deriving DecidableEq, Repr

inductive PutObjectResult where
  | created
  | alreadyPresent
deriving DecidableEq, Repr

abbrev Action (α : Type) := Prog StoreState UploadError α

-- The body as it comes in; a chunk that does not come is an error of the stream.
def writeVerifiedTemp (env : StoreEnv) (limit expectedLength : UInt64) (digest : String) :
    List (Except String Bytes) → Bytes → Except UploadError Bytes
  | [], received => do
      ensure (fileLength received = expectedLength) (.store (.lengthMismatch expectedLength (fileLength received)))
      ensure (digestBytes env.lib received = digest) (.store (.hashMismatch digest (digestBytes env.lib received)))
      return received
  | .error message :: _, _ => .error (.stream message)
  | .ok chunk :: rest, received => do
      let received := received ++ chunk
      ensure (received.length < 2 ^ 64) (.store (.objectTooLarge limit 0xFFFFFFFFFFFFFFFF))
      ensure (fileLength received ≤ limit) (.store (.objectTooLarge limit (fileLength received)))
      ensure (fileLength received ≤ expectedLength) (.store (.lengthMismatch expectedLength (fileLength received)))
      writeVerifiedTemp env limit expectedLength digest rest received

def verifyFile (env : StoreEnv) (limit expectedLength : UInt64) (digest : String) (objects : Std.ExtTreeMap String Bytes) :
    Except UploadError Unit := do
  let bytes ← found objects[digest]? (.store (.io "open"))
  ensure (fileLength bytes ≤ limit) (.store (.objectTooLarge limit (fileLength bytes)))
  ensure (fileLength bytes = expectedLength) (.store (.lengthMismatch expectedLength (fileLength bytes)))
  ensure (digestBytes env.lib bytes = digest) (.store (.hashMismatch digest (digestBytes env.lib bytes)))

def fileExists (digest : String) : Action Bool := Prog.query fun state => state.objects.contains digest

-- OpenOptions::create_new.
def createNew (name : Uuid) (state : StoreState) : Except UploadError (Unit × StoreState) := do
  ensure (state.temporaries.contains name = false) (.store (.io "create"))
  return ((), { state with temporaries := state.temporaries.insert name })

def createTemp (name : Uuid) : Action Unit := Prog.transact (createNew name)

def removeTemp (name : Uuid) : Action Unit :=
  Prog.update fun state => { state with temporaries := state.temporaries.erase name }

def renameTemp (env : StoreEnv) (name : Uuid) (digest : String) (bytes : Bytes) (state : StoreState) : Bool × StoreState :=
  if state.temporaries.contains name && (env.replaces || !state.objects.contains digest) then
    (true, { state with objects := state.objects.insert digest bytes, temporaries := state.temporaries.erase name })
  else (false, state)

def abandon {α : Type} (name : Uuid) (error : UploadError) : Action α := do
  removeTemp name
  Prog.ofExcept (.error error)

def alreadyPresent (env : StoreEnv) (limit expectedLength : UInt64) (name : Uuid) (digest : String) : Action PutObjectResult := do
  let verified ← Prog.query fun state => verifyFile env limit expectedLength digest state.objects
  removeTemp name
  Prog.ofExcept verified
  return .alreadyPresent

-- "Windows rename does not replace an existing target. A concurrent writer may
-- therefore win between the existence check and rename."
def renameRefused (env : StoreEnv) (limit expectedLength : UInt64) (name : Uuid) (digest : String) : Action PutObjectResult := do
  let present ← fileExists digest
  if present then alreadyPresent env limit expectedLength name digest
  else abandon name (.store (.io "atomically install"))

def install (env : StoreEnv) (limit expectedLength : UInt64) (name : Uuid) (digest : String) (bytes : Bytes) :
    Action PutObjectResult := do
  let present ← fileExists digest
  if present then alreadyPresent env limit expectedLength name digest
  else do
    let renamed ← .act (renameTemp env name digest bytes) .ret
    if renamed then return .created else renameRefused env limit expectedLength name digest

def finishUpload (env : StoreEnv) (limit expectedLength : UInt64) (name : Uuid) (digest : String) :
    Except UploadError Bytes → Action PutObjectResult
  | .error error => abandon name error
  | .ok bytes => install env limit expectedLength name digest bytes

def putStream (env : StoreEnv) (limit : UInt64) (name : Uuid) (digest : String) (expectedLength : UInt64)
    (stream : List (Except String Bytes)) : Action PutObjectResult := do
  Prog.ofExcept ((objectPath digest).mapError .store)
  Prog.ofExcept (ensure (expectedLength ≤ limit) (.store (.objectTooLarge limit expectedLength)))
  createTemp name
  finishUpload env limit expectedLength name digest (writeVerifiedTemp env limit expectedLength digest stream [])

def moveAway (digest destination : String) (state : StoreState) : Bool × StoreState :=
  match state.objects[digest]? with
  | none => (state.quarantined.contains destination, state)
  | some bytes =>
      (true, { state with objects := state.objects.erase digest, quarantined := state.quarantined.insert destination bytes })

def quarantine (digest destination : String) : Action Bool := do
  Prog.ofExcept ((objectPath digest).mapError .store)
  let present ← fileExists digest
  if present then .act (moveAway digest destination) .ret
  else Prog.query fun state => state.quarantined.contains destination

-- ObjectStore::open on a directory that is in use or was left by a process that died.
def openStore : Action Unit := do
  let stale ← Prog.query fun state => state.temporaries.toList
  Prog.forEach stale removeTemp

-- Each store that was opened has its own limit. TempFileGuard removes the file of an
-- upload that is given up; that may happen at any later moment.
inductive Call where
  | openStore
  | putStream (limit : UInt64) (name : Uuid) (digest : String) (expectedLength : UInt64) (stream : List (Except String Bytes))
  | quarantine (digest destination : String)
  | dropGuard (name : Uuid)

inductive Outcome where
  | opened
  | put (result : PutObjectResult)
  | quarantined (moved : Bool)
  | dropped
deriving DecidableEq, Repr

def program (env : StoreEnv) : Call → Action Outcome
  | .openStore => (fun _ => .opened) <$> openStore
  | .putStream limit name digest expectedLength stream => .put <$> putStream env limit name digest expectedLength stream
  | .quarantine digest destination => .quarantined <$> quarantine digest destination
  | .dropGuard name => (fun _ => .dropped) <$> removeTemp name

end SessionSync.Server.Uploads
