import SessionSync.Core.Json
import SessionSync.Lib.Checked
import SessionSync.Lib.Keyed
import SessionSync.Lib.Prog

set_option autoImplicit false

namespace SessionSync.Tracking

open SessionSync.Core Checked

-- namespace_tracking(codex_home_key, remote_id, namespace_id): ids are kept as UUIDs,
-- whose text is one to one.
abbrev TrackingKey := String × Uuid × Uuid

instance keyTrans : Std.TransOrd TrackingKey := inferInstance

structure TrackingRow where
  integratedHead : Option String
  remoteEpoch : Int64
  generation : Int64
  updatedAt : String
deriving DecidableEq, Repr

structure ActiveRow where
  remoteId : Uuid
  namespaceId : Uuid
  updatedAt : String
deriving DecidableEq, Repr

structure TrackingDb where
  namespaceTracking : Std.ExtTreeMap TrackingKey TrackingRow
  activeNamespace : Std.ExtTreeMap String ActiveRow

def TrackingDb.initialized : TrackingDb := ⟨∅, ∅⟩

structure TrackingRecord where
  remoteId : Uuid
  namespaceId : Uuid
  codexHomeKey : String
  integratedHead : Option String
  remoteEpoch : UInt64
  generation : UInt64
  updatedAt : String
deriving DecidableEq, Repr

structure ActiveNamespaceBinding where
  remoteId : Uuid
  namespaceId : Uuid
  codexHomeKey : String
  updatedAt : String
deriving DecidableEq, Repr

def TrackingRow.record (key : TrackingKey) (row : TrackingRow) : TrackingRecord where
  remoteId := key.2.1
  namespaceId := key.2.2
  codexHomeKey := key.1
  integratedHead := row.integratedHead
  remoteEpoch := row.remoteEpoch.toUInt64
  generation := row.generation.toUInt64
  updatedAt := row.updatedAt

abbrev Access (α : Type) := Prog TrackingDb String α

-- {:?} of an optional integer.
def debug {α : Type} [ToString α] : Option α → String
  | none => "None"
  | some value => "Some(" ++ toString value ++ ")"

def validateHead (head : Option String) : Except String Unit :=
  match head with
  | none => return
  | some head => ensure (validSha256 head = true) ("invalid integrated head " ++ head)

def changedConcurrently (expected : Option UInt64) (current : Option Int64) : String :=
  "tracking state changed concurrently: expected generation " ++ debug expected ++ ", current " ++ debug current

-- An i64 addition: where overflow is checked it panics, elsewhere it wraps.
def addOne (checks : Bool) (generation : Int64) : Except String Int64 := do
  ensure (¬ (checks = true ∧ generation = Int64.maxValue)) "attempt to add with overflow"
  return generation + 1

-- What codex_home_key makes of a path is up to the file system at that moment.
def load (home : Except String String) (remoteId namespaceId : Uuid) : Access (Option TrackingRecord) := do
  let codexHomeKey ← Prog.ofExcept home
  Prog.query fun db => db.namespaceTracking[(codexHomeKey, remoteId, namespaceId)]?.map
    (TrackingRow.record (codexHomeKey, remoteId, namespaceId))

def setHead (checks : Bool) (key : TrackingKey) (expected : Option UInt64) (head : Option String) (now : String) (db : TrackingDb) :
    Except String (TrackingRecord × TrackingDb) := do
  let current := db.namespaceTracking[key]?
  ensure (current.map (·.generation) = expected.map UInt64.toInt64) (changedConcurrently expected (current.map (·.generation)))
  let generation ← addOne checks ((current.map (·.generation)).getD 0)
  let row : TrackingRow := ⟨head, (current.map (·.remoteEpoch)).getD 0, generation, now⟩
  return (row.record key, { db with namespaceTracking := db.namespaceTracking.insert key row })

def compareAndSet (checks : Bool) (home : Except String String) (remoteId namespaceId : Uuid) (expected : Option UInt64)
    (head : Option String) (now : String) : Access TrackingRecord := do
  Prog.ofExcept (validateHead head)
  let codexHomeKey ← Prog.ofExcept home
  Prog.transact (setHead checks (codexHomeKey, remoteId, namespaceId) expected head now)

def toGeneration (expected : UInt64) : Except String Int64 := do
  ensure (expected.toNat < 2 ^ 63) "tracking generation exceeds SQLite integer range"
  return expected.toInt64

def nextGeneration (expected : Option UInt64) : Except String (Option Int64 × Int64) := do
  let expected ← expected.mapM toGeneration
  ensure (expected.getD 0 ≠ Int64.maxValue) "tracking generation overflow"
  return (expected, expected.getD 0 + 1)

def isActive (db : TrackingDb) (key : TrackingKey) : Prop :=
  db.activeNamespace[key.1]?.map (fun row => (row.remoteId, row.namespaceId)) = some key.2

instance (db : TrackingDb) (key : TrackingKey) : Decidable (isActive db key) := inferInstanceAs (Decidable (_ = _))

def activate (key : TrackingKey) (now : String) (db : TrackingDb) : TrackingDb :=
  { db with activeNamespace := db.activeNamespace.insert key.1 ⟨key.2.1, key.2.2, now⟩ }

def alreadyApplied (db : TrackingDb) (key : TrackingKey) (nextGeneration : Int64) (head : Option String) : Option TrackingRow :=
  db.namespaceTracking[key]?.filter fun row => row.generation = nextGeneration ∧ row.integratedHead = head

def reconcileHead (key : TrackingKey) (expectedGeneration : Option UInt64) (expected : Option Int64) (nextGeneration : Int64)
    (head : Option String) (activateNamespace : Bool) (now : String) (db : TrackingDb) :
    Except String (TrackingRecord × TrackingDb) := do
  let current := db.namespaceTracking[key]?
  match alreadyApplied db key nextGeneration head with
  | some row => do
      ensure (activateNamespace = true → isActive db key)
        "tracking checkout was committed without the expected active namespace"
      return (row.record key, db)
  | none => do
      ensure (current.map (·.generation) = expected) (changedConcurrently expectedGeneration (current.map (·.generation)))
      let row : TrackingRow := ⟨head, (current.map (·.remoteEpoch)).getD 0, nextGeneration, now⟩
      let db := { db with namespaceTracking := db.namespaceTracking.insert key row }
      return (row.record key, if activateNamespace then activate key now db else db)

def reconcileCheckout (home : Except String String) (remoteId namespaceId : Uuid) (expectedGeneration : Option UInt64)
    (head : Option String) (activateNamespace : Bool) (now : String) : Access TrackingRecord := do
  Prog.ofExcept (validateHead head)
  let codexHomeKey ← Prog.ofExcept home
  let (expected, next) ← Prog.ofExcept (nextGeneration expectedGeneration)
  Prog.transact (reconcileHead (codexHomeKey, remoteId, namespaceId) expectedGeneration expected next head activateNamespace now)

-- The UPDATE and the number of rows it changed.
def setRemoteEpoch (key : TrackingKey) (expected remoteEpoch : UInt64) (now : String) (db : TrackingDb) : Nat × TrackingDb :=
  match db.namespaceTracking[key]?.filter fun row => row.generation = expected.toInt64 with
  | none => (0, db)
  | some row => (1, { db with
      namespaceTracking := db.namespaceTracking.insert key { row with remoteEpoch := remoteEpoch.toInt64, updatedAt := now } })

def updateRemoteEpoch (home reread : Except String String) (remoteId namespaceId : Uuid) (expected remoteEpoch : UInt64)
    (now : String) :
    Access TrackingRecord := do
  let codexHomeKey ← Prog.ofExcept home
  let changed ← .act (setRemoteEpoch (codexHomeKey, remoteId, namespaceId) expected remoteEpoch now) .ret
  Prog.ofExcept (ensure (changed = 1) "tracking state changed before remote epoch reconciliation")
  let record ← load reread remoteId namespaceId
  Prog.ofExcept (found record "tracking record disappeared")

def setActive (home : Except String String) (remoteId namespaceId : Uuid) (now : String) : Access ActiveNamespaceBinding := do
  let codexHomeKey ← Prog.ofExcept home
  Prog.update (activate (codexHomeKey, remoteId, namespaceId) now)
  return ⟨remoteId, namespaceId, codexHomeKey, now⟩

inductive Reply where
  | record (record : TrackingRecord)
  | binding (binding : ActiveNamespaceBinding)
deriving DecidableEq, Repr

inductive Call where
  | compareAndSet (home : Except String String) (remoteId namespaceId : Uuid) (expected : Option UInt64) (head : Option String)
      (now : String)
  | reconcileCheckout (home : Except String String) (remoteId namespaceId : Uuid) (expected : Option UInt64) (head : Option String)
      (activateNamespace : Bool) (now : String)
  | updateRemoteEpoch (home reread : Except String String) (remoteId namespaceId : Uuid) (expected remoteEpoch : UInt64)
      (now : String)
  | setActive (home : Except String String) (remoteId namespaceId : Uuid) (now : String)

def Call.prog (checks : Bool) : Call → Access Reply
  | .compareAndSet home remoteId namespaceId expected head now =>
      Reply.record <$> Tracking.compareAndSet checks home remoteId namespaceId expected head now
  | .reconcileCheckout home remoteId namespaceId expected head activateNamespace now =>
      Reply.record <$> Tracking.reconcileCheckout home remoteId namespaceId expected head activateNamespace now
  | .updateRemoteEpoch home reread remoteId namespaceId expected remoteEpoch now =>
      Reply.record <$> Tracking.updateRemoteEpoch home reread remoteId namespaceId expected remoteEpoch now
  | .setActive home remoteId namespaceId now => Reply.binding <$> Tracking.setActive home remoteId namespaceId now

end SessionSync.Tracking
