import SessionSync.Server.ObjectStore
import SessionSync.Server.Reachability
import SessionSync.Storage.LocalRepository

set_option autoImplicit false

namespace SessionSync.Storage

open SessionSync.Core Checked
open Server (StorageObjectKind StorageObjectRef ObjectKey)

-- objects/<kind>/sha256/<directory>/<name>.
abbrev StoredPath := StorageObjectKind × String × String

instance storedTrans : Std.TransOrd StoredPath := inferInstance

-- trash/gc/<operation>/<kind>/<digest>.
abbrev QuarantinePath := String × ObjectKey

instance quarantineTrans : Std.TransOrd QuarantinePath := inferInstance

-- The regular files that the collection of garbage goes through, and what else there is.
structure GcRepository (ρ : Type) where
  format4 : Bool
  stored : Std.ExtTreeMap StoredPath Bytes
  quarantine : Std.ExtTreeMap QuarantinePath Bytes
  journal : Std.ExtTreeMap String Bytes
  others : ρ

structure GcPlan where
  schemaVersion : UInt32
  createdAt : String
  reachableObjects : Nat
  unreachableObjects : List StorageObjectRef
  reclaimableBytes : UInt64
deriving DecidableEq, Repr

def GcPlan.toValue (plan : GcPlan) : Value :=
  .object [("schemaVersion", .nat plan.schemaVersion.toUInt64), ("createdAt", .string plan.createdAt),
    ("reachableObjects", .nat (UInt64.ofNat plan.reachableObjects)),
    ("unreachableObjects", .array (plan.unreachableObjects.map StorageObjectRef.toValue)),
    ("reclaimableBytes", .nat plan.reclaimableBytes)]

-- What a run of the collection rests on: the walk of the graphs below the snapshots, the
-- trash and the revision roots, and the clock. Nothing is assumed of either.
structure GcCode (ρ : Type) where
  lib : Primitives
  reachable : GcRepository ρ → Except String (List StorageObjectRef)
  now : String

variable {ρ : Type} (code : GcCode ρ)

def storedObject (path : StoredPath) (bytes : Bytes) : StorageObjectRef :=
  { kind := path.1, sha256 := "sha256:" ++ (path.2.1 ++ path.2.2), byteLength := fileLength bytes }

def validateStorageObjectRef (object : StorageObjectRef) : Except String Unit := do
  ensure (validSha256 object.sha256 = true) ("invalid storage object hash " ++ object.sha256)
  ensure (object.byteLength ≤ object.kind.maxBytes) (object.kind.wireName ++ " object exceeds its size limit")

-- The older format does not look at the name of the directory.
def checkStored (format4 : Bool) (path : StoredPath) (object : StorageObjectRef) : Except String Unit :=
  if format4 then do
    ensure (path.2.1.utf8ByteSize = 2) ("invalid v4 object prefix directory " ++ path.2.1)
    validateSha256V4 object.sha256
  else validateStorageObjectRef object

def enumerateObjects (format4 : Bool) : List (StoredPath × Bytes) → Except String (List StorageObjectRef)
  | [] => .ok []
  | (path, bytes) :: rest => do
      checkStored format4 path (storedObject path bytes)
      let objects ← enumerateObjects format4 rest
      return storedObject path bytes :: objects

def refOrder (left right : StorageObjectRef) : Prop :=
  compare (left.kind, left.sha256, left.byteLength) (right.kind, right.sha256, right.byteLength) ≠ .gt

instance refOrderDecidable : DecidableRel refOrder := fun _ _ => inferInstanceAs (Decidable (_ ≠ _))

def planLocalGc (repository : GcRepository ρ) : Except String GcPlan := do
  let reachable ← code.reachable repository
  let objects ← enumerateObjects repository.format4 repository.stored.toList
  let unreachable := (objects.filter fun object => object ∉ reachable).insertionSort refOrder
  let reclaimableBytes ← checkedTotal "GC byte count overflow" (unreachable.map StorageObjectRef.byteLength) 0
  return { schemaVersion := if repository.format4 then 4 else 1, createdAt := code.now, reachableObjects := reachable.length,
           unreachableObjects := unreachable, reclaimableBytes := reclaimableBytes }

def staleMessage : String := "GC plan became stale before quarantine"

-- The digits of a valid digest, of which the first two name the directory.
def digits (sha256 : String) : List Char := sha256.toList.drop 7

def objectPlace (object : StorageObjectRef) : StoredPath :=
  (object.kind, String.ofList ((digits object.sha256).take 2), String.ofList ((digits object.sha256).drop 2))

def moveObjects (operation : String) (authoritative : List StorageObjectRef) :
    List StorageObjectRef → GcRepository ρ → Except String Unit × GcRepository ρ
  | [], repository => (.ok (), repository)
  | object :: rest, repository =>
      if object ∉ authoritative then (.error staleMessage, repository)
      else if validSha256 object.sha256 = false then (.error ("invalid SHA-256 identifier " ++ object.sha256), repository)
      else
        match repository.stored[objectPlace object]? with
        | none => moveObjects operation authoritative rest repository
        | some bytes =>
            moveObjects operation authoritative rest
              { repository with stored := repository.stored.erase (objectPlace object),
                                quarantine :=
                                  repository.quarantine.insert (operation, object.kind, String.ofList (digits object.sha256)) bytes }

-- The operation is new. A run that the file system ends early reports neither of the two
-- results that the laws below are about.
def quarantineLocalGcPlan (operation : String) (repository : GcRepository ρ) (plan : GcPlan) : Except String Unit × GcRepository ρ :=
  let repository :=
    { repository with journal := repository.journal.insert ("gc-" ++ operation ++ ".json") (canonicalJson code.lib plan.toValue) }
  match planLocalGc code repository with
  | .error error => (.error error, repository)
  | .ok authoritative => moveObjects operation authoritative.unreachableObjects plan.unreachableObjects repository

end SessionSync.Storage
