import Mathlib.Data.List.Infix
import SessionSync.Checkout.StagedPaths
import SessionSync.Rollout.Materialize
import SessionSync.Storage.ContentV3
import SessionSync.Storage.Descriptor

set_option autoImplicit false

namespace SessionSync.Checkout.Staging

open SessionSync.Core Checked Local Storage Rollout

-- The repository and what its host supplies. Without format.json it is a v3 one;
-- `operation` is the Uuid::now_v7 of one materialisation there, and `refusesRemoval` says
-- of which threads the system does not let the staging remove a file of its own again.
structure StageEnv where
  style : PathStyle
  lib : Primitives
  reader : Reader
  serde : Decoders
  files : Files
  v4 : Bool
  operation : ThreadBundle → String
  refusesRemoval : ThreadBundle → Bool

variable (env : StageEnv)

def stagedContentRef (thread : ThreadBundle) (storage : StorageRef) : ContentRefV4 :=
  ⟨thread.rollout.sha256, thread.rollout.byteLength, storageRefV4 storage, thread.rollout.mediaType, thread.rollout.logicalPath⟩

def stagedContext (thread : ThreadBundle) : MachineContextV4 := ⟨thread.modelProvider.getD "openai", thread.workspace.sourcePath⟩

def targetAt (path : List Char) : Location := (pathNames env.style path).map env.style.sameName

-- target.with_extension(..), which is the name of a file whatever the text of the path is.
def temporaryAt (thread : ThreadBundle) (path : List Char) : Location :=
  (withExtension (pathNames env.style path)
    (if env.v4 then "normalized.tmp" else env.operation thread ++ ".tmp")).map env.style.sameName

def createDirectories (location : Location) : Device Tree Unit :=
  Prog.forEach location.inits.tail fun each => touch (Tree.createDir each)

-- `let _ = fs::remove_file(..)`.
def discardFile (refused : Bool) (location : Location) : Device Tree Unit :=
  Prog.update fun device =>
    if refused then device else { device with state := (device.state.removeFile location).toOption.getD device.state }

-- create_new, write_all, flush and sync_all of one file.
def writeNewFile (location : Location) (directoryOnly : Bool) (content : Except String Bytes) : Device Tree Unit := do
  touch (Tree.createNew location directoryOnly)
  let bytes ← Prog.ofExcept content
  touch (Tree.writeAll location bytes)
  fallible

section Stage

variable (thread : ThreadBundle) (path : List Char)

@[irreducible] def normalizedContent (storage : StorageRef) : Except String Bytes :=
  materializeContent env.lib env.serde env.files (stagedContentRef thread storage)

@[irreducible] def materializeRolloutFile : Device Tree Unit := do
  let _ ← Prog.ofExcept (validateProviderIdV4 (stagedContext thread).configuredProvider)
  let normalized ← inspect (Tree.readFile (temporaryAt env thread path))
  writeNewFile (targetAt env path) (env.style.directoryText path)
    (materializeRolloutBytes env.lib env.reader normalized thread.threadId (stagedContext thread))

-- The removal of the normalised file is not looked at.
def stageNormalized (storage : StorageRef) : Device Tree Unit := do
  fallible
  writeNewFile (temporaryAt env thread path) false (normalizedContent env thread storage)
  let result ← (materializeRolloutFile env thread path).attempt
  discardFile (env.refusesRemoval thread) (temporaryAt env thread path)
  Prog.ofExcept result

def stageStored (storage : StorageRef) : Device Tree Unit := do
  fallible
  Prog.ofExcept (validateContentRef (stagedContentRef thread storage))
  let there ← probe (Tree.present (targetAt env path) (env.style.directoryText path))
  Prog.ofExcept (ensure (there = false) "materialization destination already exists")
  createDirectories (targetAt env path).dropLast
  let result ← (do
    writeNewFile (temporaryAt env thread path) false (contentV3 env.lib env.serde env.files (stagedContentRef thread storage))
    touch (Tree.rename (temporaryAt env thread path) (targetAt env path) (env.style.directoryText path)) : Device Tree Unit).attempt
  match result with
  | .ok _ => pure ()
  | .error error => do
      discardFile (env.refusesRemoval thread) (temporaryAt env thread path)
      Prog.fail error

def copyVerifiedObject : Device Tree Unit := do
  let bytes ← Prog.ofExcept (repositoryObject env.files env.v4 thread.rollout.sha256)
  touch (Tree.createNew (targetAt env path) (env.style.directoryText path))
  let cancelled ← (checkCancelled : Device Tree Unit).attempt
  match cancelled with
  | .error error => do
      discardFile (env.refusesRemoval thread) (targetAt env path)
      Prog.fail error
  | .ok _ => do
      touch (Tree.writeAll (targetAt env path) bytes)
      fallible
      match ensure (digestBytes env.lib bytes = thread.rollout.sha256) "content hash mismatch" with
      | .error error => do
          discardFile (env.refusesRemoval thread) (targetAt env path)
          Prog.fail error
      | .ok _ => pure ()

def stageContent : Device Tree Unit :=
  match thread.rollout.storage with
  | none => copyVerifiedObject env thread path
  | some storage => if env.v4 then stageNormalized env thread path storage else stageStored env thread path storage

def checkLength : Device Tree Unit :=
  if env.v4 then pure ()
  else do
    let bytes ← inspect (Tree.readFile (targetAt env path))
    Prog.ofExcept (ensure (fileLength bytes = thread.rollout.byteLength) "staged rollout has an unexpected byte length")

-- restore_rollout_modified_time changes nothing but a time.
def stageAt : Device Tree Unit := do
  let there ← probe (Tree.present (targetAt env path) (env.style.directoryText path))
  Prog.ofExcept (ensure (there = false) "checkout contains duplicate rollout path")
  createDirectories (targetAt env path).dropLast
  stageContent env thread path
  checkLength env thread path
  fallible

def stageRollout : Device Tree Unit := do
  checkCancelled
  let path ← Prog.ofExcept (safeRolloutPath env.style thread)
  stageAt env thread path

-- The bytes that are to be in the staged file of a thread.
def stagedContent : Except String Bytes :=
  match thread.rollout.storage with
  | none => do
      let bytes ← repositoryObject env.files env.v4 thread.rollout.sha256
      ensure (digestBytes env.lib bytes = thread.rollout.sha256) "content hash mismatch"
      return bytes
  | some storage =>
      if env.v4 then do
        let normalized ← normalizedContent env thread storage
        materializeRolloutBytes env.lib env.reader normalized thread.threadId (stagedContext thread)
      else contentV3 env.lib env.serde env.files (stagedContentRef thread storage)

end Stage

def stageRollouts (threads : List ThreadBundle) : Device Tree Unit := Prog.forEach threads (stageRollout env)

end SessionSync.Checkout.Staging
