import SessionSync.Checkout.Apply

set_option autoImplicit false

namespace SessionSync.Checkout

open SessionSync.Core Checked Local Tracking

variable {δ : Type} (env : CheckoutEnv δ)

def CheckoutStatus.writesLive : CheckoutStatus → Bool
  | .applying | .validating | .localApplied | .recoveryRequired => true
  | _ => false

def failureOf (result : Except String Unit) : List String :=
  match result with
  | .ok _ => []
  | .error error => [error]

-- What is live is kept in the failed directory, once.
def preserveFailed (operationId : Uuid) (slot : Slot) : Access δ Unit := do
  let kept ← probe (Disk.has (.failed operationId slot))
  Prog.ofExcept (ensure (kept = false) "failed-state path already exists")
  renameCheckoutDirectory (.live slot) (.failed operationId slot)

def swapStarted (operationId : Uuid) (swap : CheckoutSwap) (disk : Disk δ) : Bool :=
  disk.has (.backup operationId swap.slot) || (!swap.originalExisted && disk.has (.live swap.slot))

def keepFailed (operationId : Uuid) (slot : Slot) (begun : Bool) : Access δ (Except String Unit) := do
  let present ← probe (Disk.has (.live slot))
  if begun && present then (preserveFailed operationId slot).attempt else pure (.ok ())

def putBack (operationId : Uuid) (slot : Slot) (begun : Bool) : Access δ (Except String Unit) := do
  let ready ← probe fun disk => begun && disk.has (.backup operationId slot) && !disk.has (.live slot)
  if ready then (renameCheckoutDirectory (.backup operationId slot) (.live slot)).attempt else pure (.ok ())

-- One round of either loop of rollback_checkout, with the failures it meets.
def rollbackSwap (operationId : Uuid) (localWriteStarted : Bool) (swap : CheckoutSwap) : Access δ (List String) := do
  let begun ← probe fun disk => localWriteStarted && swapStarted operationId swap disk
  let preserved ← keepFailed operationId swap.slot begun
  let restored ← putBack operationId swap.slot begun
  discard (.staged operationId swap.slot)
  return failureOf preserved ++ failureOf restored

def rollbackSwaps (operationId : Uuid) (localWriteStarted : Bool) : List CheckoutSwap → Access δ (List String)
  | [] => pure []
  | swap :: rest => do
      let failures ← rollbackSwap operationId localWriteStarted swap
      let later ← rollbackSwaps operationId localWriteStarted rest
      return failures ++ later

def restoreDatabase (operationId : Uuid) (backup : CheckoutDatabaseBackup) : Access δ Unit :=
  touch fun disk => do
    let database ← found (disk.databaseBackups (operationId, backup.backup)) "failed to restore database"
    return { disk with databases := disk.databases.insert backup.target database }

def restoreDatabases (operationId : Uuid) : List CheckoutDatabaseBackup → Access δ (List String)
  | [] => pure []
  | backup :: rest => do
      let restored ← (restoreDatabase operationId backup).attempt
      let later ← restoreDatabases operationId rest
      return failureOf restored ++ later

def rollbackText (error : Option String) (failures : List String) : String :=
  match error, failures with
  | some error, [] => error
  | some error, failures => error ++ "; " ++ "; ".intercalate failures
  | none, [] => "Checkout was rolled back"
  | none, failures => "; ".intercalate failures

-- The swaps in the order in which they are rolled back.
def CheckoutJournal.swaps (journal : CheckoutJournal) : List CheckoutSwap :=
  (journal.fileSwaps.map (·.toCheckoutSwap)).reverse ++ journal.directorySwaps.reverse

def rollbackCheckout (journal : CheckoutJournal) (error : Option String) : Access δ CheckoutJournal := do
  let localWriteStarted := journal.status.writesLive
  createDirAll
  let swaps ← rollbackSwaps journal.operationId localWriteStarted journal.swaps
  let databases ← restoreDatabases journal.operationId (if localWriteStarted then journal.databaseBackups else [])
  let failures := swaps ++ databases
  let journal :=
    { journal with
      status := if failures = [] then .rolledBack else .recoveryRequired
      error := some (rollbackText error failures) }
  writeCheckoutJournal journal
  Prog.ofExcept (ensure (failures = []) ("checkout recovery requires manual attention: " ++ "; ".intercalate failures))
  return journal

def rejectLocalAppliedRecovery (journal : CheckoutJournal) (error : String) : Access δ CheckoutJournal := do
  writeCheckoutJournal { journal with error := some error }
  Prog.ofExcept (.error error)

def finishLocalApplied (now : String) (journal : CheckoutJournal) : Access δ CheckoutJournal := do
  let checked ← (validateCheckoutJournalResult env journal).attempt
  match checked with
  | .error _ =>
      rejectLocalAppliedRecovery journal
        "live Codex Home does not match the journal target; refusing recovery without modifying local data"
  | .ok _ => do
      let tracked ← (applyTrackingUpdate env now journal).attempt
      match tracked with
      | .error _ =>
          rejectLocalAppliedRecovery journal
            "failed to reconcile applied checkout tracking; refusing recovery without rolling back local data"
      | .ok _ => do
          let journal := { journal with status := .completed, error := none }
          writeCheckoutJournal journal
          return journal

def recoverCheckoutOperation (confirmedCodexClosed : Bool) (operationId : Uuid) (now : String) : Access δ CheckoutJournal := do
  Prog.ofExcept (ensure (confirmedCodexClosed = true) "checkout recovery requires confirmation that Codex is fully closed")
  let journal ← readCheckoutJournal operationId
  Prog.ofExcept (validateCheckoutJournal journal)
  match journal.status with
  | .completed | .rolledBack => return journal
  | .localApplied => finishLocalApplied env now journal
  | _ => rollbackCheckout journal (some "Recovered an incomplete checkout operation")

def checkoutTargetsSameHome (right : String) : Except String Bool :=
  if env.targetCodexHome = right then .ok true else env.sameHome right

-- ensure_no_incomplete_checkout_journal, over the journals in the order of their names.
def ensureNoIncompleteCheckoutJournal : List CheckoutJournal → Except String Unit
  | [] => .ok ()
  | journal :: rest => do
      validateCheckoutJournal journal
      if journal.status = .completed ∨ journal.status = .rolledBack then
        ensureNoIncompleteCheckoutJournal rest
      else do
        let same ← checkoutTargetsSameHome env journal.targetCodexHome
        ensure (same = false) "checkout is blocked by an unfinished checkout operation"
        ensureNoIncompleteCheckoutJournal rest

-- A snapshot as the manifest gives it: the path of a source file is never stored.
structure LoadedSnapshot extends LocalSnapshot where
  unread : ∀ thread ∈ threads, thread.rollout.sourcePath = none

structure CheckoutInput where
  confirmedCodexClosed : Bool
  operationId : Uuid
  manifest : Except String LoadedSnapshot
  trackingUpdate : Option CheckoutTrackingUpdate
  workspaceProjectRoots : List String
  retainRecoveryBackup : Bool
  now : String

structure CheckoutReport where
  operationId : Uuid
  snapshotId : String
  threadCount : Nat
  backupRetained : Bool
deriving DecidableEq, Repr

def maxCodexGlobalStateBytes : Nat := 16 * 1024 * 1024

def liveFile (slot : Slot) (disk : Disk δ) : Option Bytes :=
  match disk.entries (.live slot) with
  | some (.file bytes) => some bytes
  | _ => none

-- OpenOptions::create_new.
def createStagedFile (operationId : Uuid) (slot : Slot) (bytes : Bytes) : Access δ Unit :=
  touch fun disk => do
    ensure (disk.has (.staged operationId slot) = false) "File exists"
    return disk.put (.staged operationId slot) (some (.file bytes))

def prepareProjectStateSwap (operationId : Uuid) (threads : List ThreadBundle) (roots : List String) :
    Access δ (List CheckoutFileSwap) := do
  let state ← probe (liveFile .globalState)
  match state with
  | none => return []
  | some bytes => do
      Prog.ofExcept (ensure (bytes.length ≤ maxCodexGlobalStateBytes) "Codex global state is too large to update safely")
      let output ← inspect fun _ => env.projectState threads roots bytes
      match output with
      | none => return []
      | some output => do
          createDirAll
          createStagedFile operationId .globalState output
          return [{ slot := .globalState, originalExisted := true, expectedSha256 := digestBytes env.lib output }]

-- An error carries the journal as it is in memory at that point.
abbrev Journaled (δ α : Type) := Prog (Faulty (Disk δ)) (CheckoutJournal × String) α

def during {α : Type} (journal : CheckoutJournal) (prog : Access δ α) : Journaled δ α := prog.mapError fun error => (journal, error)

def backupDatabase (operationId : Uuid) (path : String) (index : Nat) : Access δ Unit :=
  touch fun disk => do
    let database ← found disk.databases[path]? "failed to back up database"
    return { disk with databaseBackups := fun key => if key = (operationId, index) then some database else disk.databaseBackups key }

def backUpDatabases (journal : CheckoutJournal) (index : Nat) : List String → Journaled δ CheckoutJournal
  | [] => pure journal
  | path :: rest => do
      during journal (backupDatabase journal.operationId path index)
      let journal := { journal with databaseBackups := journal.databaseBackups ++ [⟨path, index⟩] }
      during journal (writeCheckoutJournal journal)
      backUpDatabases journal (index + 1) rest

def enter (journal : CheckoutJournal) (status : CheckoutStatus) : Journaled δ CheckoutJournal := do
  let journal := { journal with status := status }
  during journal (writeCheckoutJournal journal)
  return journal

def applyStaged (journal : CheckoutJournal) (databasePaths catalogDatabases : List String) (snapshot : LocalSnapshot) :
    Access δ Unit := do
  applyDirectorySwaps journal.operationId journal.directorySwaps
  applyFileSwaps journal.operationId journal.fileSwaps
  replaceDatabases env databasePaths snapshot.threads
  invalidateLocalThreadCatalogs env catalogDatabases

def runCheckout (now : String) (snapshot : LocalSnapshot) (databasePaths catalogDatabases : List String) (journal : CheckoutJournal) :
    Journaled δ CheckoutJournal := do
  during journal do
    stageRollouts env journal.operationId snapshot.threads
    checkCancelled
    createDirAll
  let journal ← backUpDatabases journal 0 (databasePaths ++ catalogDatabases.filter (· ∉ databasePaths))
  let journal ← enter journal .backedUp
  during journal checkCancelled
  let journal ← enter journal .applying
  during journal (applyStaged env journal databasePaths catalogDatabases snapshot)
  let journal ← enter journal .validating
  during journal do
    validateCheckoutResult env snapshot
    validateFileSwaps env journal.fileSwaps
  let journal ← enter journal .localApplied
  during journal (applyTrackingUpdate env now journal)
  return journal

def failCheckout (journal : CheckoutJournal) (error : String) : Access δ CheckoutReport := do
  let rollback ← (rollbackCheckout journal (some error)).attempt
  match rollback with
  | .error failed => Prog.ofExcept (.error ("checkout rollback also failed: " ++ failed ++ ": " ++ error))
  | .ok _ => Prog.ofExcept (.error error)

def swapOf (slot : Slot) (disk : Disk δ) : CheckoutSwap := ⟨slot, disk.has (.live slot)⟩

def createStagedDirectory (operationId : Uuid) (swap : CheckoutSwap) : Access δ Unit :=
  touch fun disk => .ok (disk.put (.staged operationId swap.slot) (some (.directory ∅)))

-- remove_dir_all on a directory of the operation.
def discardAll (place : Slot → Place) : Access δ Unit := do
  discard (place .sessions)
  discard (place .archivedSessions)
  discard (place .globalState)

def discardCopies (operationId : Uuid) : Access δ Unit := do
  let _ ← (touch fun disk => .ok { disk with
    databaseBackups := fun key => if key.1 = operationId then none else disk.databaseBackups key }).attempt

def discardBackups (operationId : Uuid) (retainRecoveryBackup : Bool) : Access δ Unit :=
  if retainRecoveryBackup then pure ()
  else do
    discardCopies operationId
    discardAll (.backup operationId)

def checkoutLocalSnapshot (input : CheckoutInput) : Access δ CheckoutReport := do
  Prog.ofExcept (ensure (input.confirmedCodexClosed = true) "checkout requires confirmation that Codex is fully closed")
  Prog.ofExcept (match input.trackingUpdate with | some update => validateTrackingUpdate update | none => pure ())
  let snapshot ← Prog.ofExcept input.manifest
  let current ← inspect fun disk => env.scan disk.home
  Prog.ofExcept (ensure (current.warnings = 0) "checkout is blocked because the local scan returned warnings")
  Prog.ofExcept (ensure (current.databasePaths ≠ []) "target Codex home has no writable threads database")
  let catalogDatabases ← inspect fun disk => env.catalogDatabases disk.home
  checkCancelled
  createDirAll
  inspect fun disk => ensureNoIncompleteCheckoutJournal env (Keyed.values disk.journals)
  createDirAll
  let directorySwaps ← probe fun disk => [swapOf .sessions disk, swapOf .archivedSessions disk]
  Prog.forEach directorySwaps (createStagedDirectory input.operationId)
  let fileSwaps ← prepareProjectStateSwap env input.operationId snapshot.threads input.workspaceProjectRoots
  let expectedThreadHashes ← threadHashes env snapshot.threads
  let journal : CheckoutJournal :=
    { schemaVersion := checkoutJournalSchemaVersion
      operationId := input.operationId
      snapshotId := snapshot.snapshotId
      targetCodexHome := env.targetCodexHome
      status := .preparing
      databaseBackups := []
      directorySwaps := directorySwaps
      fileSwaps := fileSwaps
      expectedThreadHashes := expectedThreadHashes
      trackingUpdate := input.trackingUpdate
      retainRecoveryBackup := input.retainRecoveryBackup
      error := none }
  writeCheckoutJournal journal
  let outcome ← (runCheckout env input.now snapshot.toLocalSnapshot current.databasePaths catalogDatabases journal).attempt
  match outcome with
  | .error (journal, error) => failCheckout journal error
  | .ok journal => do
      writeCheckoutJournal { journal with status := .completed }
      discardAll (.staged input.operationId)
      discardBackups input.operationId input.retainRecoveryBackup
      return { operationId := input.operationId
               snapshotId := snapshot.snapshotId
               threadCount := snapshot.threads.length
               backupRetained := input.retainRecoveryBackup }

end SessionSync.Checkout
