import SessionSync.Core.ThreadView
import SessionSync.Local.Access
import SessionSync.Tracking.Store

set_option autoImplicit false

namespace SessionSync.Checkout

open SessionSync.Core Checked Local Tracking

-- The entries of a Codex home that a checkout puts others in place of.
inductive Slot where
  | sessions
  | archivedSessions
  | globalState
deriving DecidableEq, Repr

-- Where such an entry can be: in the home, or in the staging, backup or failed
-- directory that an operation keeps for itself.
inductive Place where
  | live (slot : Slot)
  | staged (operationId : Uuid) (slot : Slot)
  | backup (operationId : Uuid) (slot : Slot)
  | failed (operationId : Uuid) (slot : Slot)
deriving DecidableEq

inductive Entry where
  | directory (files : Std.ExtTreeMap String Bytes)
  | file (bytes : Bytes)

inductive CheckoutStatus where
  | preparing
  | backedUp
  | applying
  | validating
  | localApplied
  | completed
  | rolledBack
  | recoveryRequired
deriving DecidableEq, Repr

-- The copy is databases/<backup>.sqlite in the backup directory of the operation.
structure CheckoutDatabaseBackup where
  target : String
  backup : Nat
deriving DecidableEq, Repr

-- A directory swap; its paths are told by the slot.
structure CheckoutSwap where
  slot : Slot
  originalExisted : Bool
deriving DecidableEq, Repr

structure CheckoutFileSwap extends CheckoutSwap where
  expectedSha256 : String
deriving DecidableEq, Repr

structure CheckoutTrackingUpdate where
  remoteId : Uuid
  namespaceId : Uuid
  expectedGeneration : Option UInt64
  integratedHead : Option String
  activateNamespace : Bool
deriving DecidableEq, Repr

structure CheckoutJournal where
  schemaVersion : UInt32
  operationId : Uuid
  snapshotId : String
  targetCodexHome : String
  status : CheckoutStatus
  databaseBackups : List CheckoutDatabaseBackup
  directorySwaps : List CheckoutSwap
  fileSwaps : List CheckoutFileSwap
  expectedThreadHashes : Std.ExtTreeMap String String
  trackingUpdate : Option CheckoutTrackingUpdate
  retainRecoveryBackup : Bool
  error : Option String

structure Disk (δ : Type) where
  entries : Place → Option Entry
  databases : Std.ExtTreeMap String δ
  databaseBackups : Uuid × Nat → Option δ
  journals : Std.ExtTreeMap Uuid CheckoutJournal
  tracking : TrackingDb

-- What a scan of the home looks at.
structure Home (δ : Type) where
  entries : Slot → Option Entry
  databases : Std.ExtTreeMap String δ

variable {δ : Type}

def Disk.home (disk : Disk δ) : Home δ := ⟨fun slot => disk.entries (.live slot), disk.databases⟩

abbrev Access (δ α : Type) := Device (Disk δ) α

def Disk.has (place : Place) (disk : Disk δ) : Bool := (disk.entries place).isSome

def Disk.put (place : Place) (entry : Option Entry) (disk : Disk δ) : Disk δ :=
  { disk with entries := fun other => if other = place then entry else disk.entries other }

def Disk.rename (source destination : Place) (disk : Disk δ) : Except String (Disk δ) := do
  let entry ← found (disk.entries source) "No such file or directory"
  return (disk.put source none).put destination (some entry)

def renameCheckoutDirectory (source destination : Place) : Access δ Unit := touch (Disk.rename source destination)

-- `let _ = fs::remove_...`: an error is ignored.
def discard (place : Place) : Access δ Unit := do
  let _ ← (touch fun disk => .ok (disk.put place none)).attempt

def checkoutJournalSchemaVersion : UInt32 := 4

def validateTrackingUpdate (update : CheckoutTrackingUpdate) : Except String Unit := do
  ensure (update.remoteId.version = 7) "checkout tracking remote ID must be a UUIDv7"
  ensure (update.namespaceId.version = 7) "checkout tracking namespace ID must be a UUIDv7"
  match update.integratedHead with
  | some head => ensure (validSha256 head = true) ("invalid checkout tracking head " ++ head)
  | none => pure ()
  ensure (update.expectedGeneration ≠ some (UInt64.ofNat (2 ^ 64 - 1))) "checkout tracking generation cannot be incremented"

def validateFileHashes : List CheckoutFileSwap → Except String Unit
  | [] => .ok ()
  | swap :: rest => do
      ensure (validSha256 swap.expectedSha256 = true) ("invalid checkout file hash " ++ swap.expectedSha256)
      validateFileHashes rest

def validateCheckoutJournal (journal : CheckoutJournal) : Except String Unit := do
  ensure (journal.schemaVersion = checkoutJournalSchemaVersion) "unsupported checkout journal schema version"
  match journal.trackingUpdate with
  | some update => validateTrackingUpdate update
  | none => pure ()
  validateFileHashes journal.fileSwaps

def writeCheckoutJournal (journal : CheckoutJournal) : Access δ Unit := do
  Prog.ofExcept (validateCheckoutJournal journal)
  atomicWriteJson (fun disk => disk.journals.contains journal.operationId)
    (fun disk => { disk with journals := disk.journals.erase journal.operationId })
    (fun disk => { disk with journals := disk.journals.insert journal.operationId journal })

def readCheckoutJournal (operationId : Uuid) : Access δ CheckoutJournal :=
  inspect fun disk => found disk.journals[operationId]? "No such file or directory"

structure ScanResult where
  warnings : Nat
  databasePaths : List String
  threads : List ThreadBundle

-- The rest of the program and the system as far as a checkout calls them: nothing
-- is assumed about any of it.
structure CheckoutEnv (δ : Type) where
  lib : Primitives
  targetCodexHome : String
  codexHomeKey : Except String String
  sameHome : String → Except String Bool
  scan : Home δ → Except String ScanResult
  catalogDatabases : Home δ → Except String (List String)
  normalized : Home δ → String → String → Except String (String × UInt64)
  projectState : List ThreadBundle → List String → Bytes → Except String (Option Bytes)
  safeRolloutPath : ThreadBundle → Except String (Slot × String)
  materialize : ThreadBundle → Except String Bytes
  selectPrimaryDatabase : Home δ → List String → Except String String
  deleteThreads : δ → Except String δ
  insertThreads : List ThreadBundle → δ → Except String δ
  invalidateCatalog : δ → Except String δ

end SessionSync.Checkout
