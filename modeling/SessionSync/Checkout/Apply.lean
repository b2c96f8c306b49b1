import SessionSync.Checkout.Disk

set_option autoImplicit false

namespace SessionSync.Checkout

open SessionSync.Core Checked Local Tracking

variable {δ : Type} (env : CheckoutEnv δ)

-- The fields that the machine decides, at any depth of a row.
def machineFields : List String := ["model_provider", "rollout_path", "codex_home", "cwd"]

mutual
def stripMachineFields : Value → Value
  | .null => .null
  | .bool value => .bool value
  | .number value => .number value
  | .string text => .string text
  | .array values => .array (stripElements values)
  | .object fields => .object (stripFields fields)
def stripElements : List Value → List Value
  | [] => []
  | value :: rest => stripMachineFields value :: stripElements rest
def stripFields : Fields → Fields
  | [] => []
  | (key, value) :: rest =>
      if key ∈ machineFields then stripFields rest else (key, stripMachineFields value) :: stripFields rest
end

def portableContent (content : ContentObject) : ContentObject :=
  { content with sourcePath := none, storage := none, logicalPath := none }

-- A rollout that is still a file of the home is hashed as its normalized text.
def semanticThread (home : Home δ) (thread : ThreadBundle) : Except String ThreadBundle := do
  let (sha256, byteLength) ←
    match thread.rollout.sourcePath with
    | some source => env.normalized home source thread.threadId
    | none => pure (thread.rollout.sha256, thread.rollout.byteLength)
  return {
    thread with
    modelProvider := none
    workspace := ⟨none, none⟩
    rollout := portableContent { thread.rollout with sha256 := sha256, byteLength := byteLength }
    attachments := thread.attachments.map portableContent
    relatedRecords :=
      { sourceDatabase := none, tables := thread.relatedRecords.tables.map fun _ rows => rows.map stripMachineFields } }

def semanticThreadHashes (home : Home δ) : List ThreadBundle → Std.ExtTreeMap String String →
    Except String (Std.ExtTreeMap String String)
  | [], hashes => .ok hashes
  | thread :: rest, hashes => do
      let semantic ← semanticThread env home thread
      ensure (hashes.contains thread.threadId = false) ("checkout contains duplicate thread ID " ++ thread.threadId)
      semanticThreadHashes home rest (hashes.insert thread.threadId (semanticThreadHash env.lib semantic))

def stagedFiles (operationId : Uuid) (slot : Slot) (disk : Disk δ) : Except String (Std.ExtTreeMap String Bytes) :=
  match disk.entries (.staged operationId slot) with
  | some (.directory files) => .ok files
  | _ => .error "failed to create staged rollout parent directory"

def stageRollout (operationId : Uuid) (thread : ThreadBundle) : Access δ Unit := do
  checkCancelled
  let (slot, relative) ← Prog.ofExcept (env.safeRolloutPath thread)
  touch fun disk => do
    let files ← stagedFiles operationId slot disk
    ensure (files.contains relative = false) "checkout contains duplicate rollout path"
    let bytes ← env.materialize thread
    return disk.put (.staged operationId slot) (some (.directory (files.insert relative bytes)))

def stageRollouts (operationId : Uuid) (threads : List ThreadBundle) : Access δ Unit :=
  Prog.forEach threads (stageRollout env operationId)

def moveLive (operationId : Uuid) (slot : Slot) : Access δ Unit := do
  let present ← probe (Disk.has (.live slot))
  if present then renameCheckoutDirectory (.live slot) (.backup operationId slot) else pure ()

-- One swap of apply_directory_swaps or apply_file_swaps, which differ in what they
-- do before they move the entry that is live.
def installSwap (prepare : Access δ Unit) (operationId : Uuid) (swap : CheckoutSwap) : Access δ Unit := do
  let occupied ← probe (Disk.has (.backup operationId swap.slot))
  Prog.ofExcept (ensure (occupied = false) "checkout backup path already exists")
  prepare
  moveLive operationId swap.slot
  renameCheckoutDirectory (.staged operationId swap.slot) (.live swap.slot)

def applyDirectorySwaps (operationId : Uuid) (swaps : List CheckoutSwap) : Access δ Unit :=
  Prog.forEach swaps (installSwap (pure ()) operationId)

def applyFileSwaps (operationId : Uuid) (swaps : List CheckoutFileSwap) : Access δ Unit :=
  Prog.forEach swaps fun swap => installSwap createDirAll operationId swap.toCheckoutSwap

def fileHash (slot : Slot) (disk : Disk δ) : Except String String :=
  match disk.entries (.live slot) with
  | some (.file bytes) => .ok (digestBytes env.lib bytes)
  | _ => .error "No such file or directory"

def validateFileSwaps (swaps : List CheckoutFileSwap) : Access δ Unit :=
  Prog.forEach swaps fun swap => do
    let actual ← inspect (fileHash env swap.slot)
    Prog.ofExcept (ensure (actual = swap.expectedSha256) "local Codex state hash mismatch")

-- One transaction on one database.
def updateDatabase (update : δ → Except String δ) (path : String) : Access δ Unit :=
  touch fun disk => do
    let database ← found disk.databases[path]? "failed to open target database"
    let database ← update database
    return { disk with databases := disk.databases.insert path database }

def replaceDatabases (databasePaths : List String) (threads : List ThreadBundle) : Access δ Unit := do
  let primary ← inspect fun disk => env.selectPrimaryDatabase disk.home databasePaths
  Prog.forEach databasePaths (updateDatabase env.deleteThreads)
  updateDatabase (env.insertThreads threads) primary

def invalidateLocalThreadCatalogs (databases : List String) : Access δ Unit :=
  Prog.forEach databases (updateDatabase env.invalidateCatalog)

def scanned : Access δ ScanResult := do
  let result ← inspect fun disk => env.scan disk.home
  Prog.ofExcept (ensure (result.warnings = 0) "post-checkout scan returned warnings")
  return result

def threadHashes (threads : List ThreadBundle) : Access δ (Std.ExtTreeMap String String) :=
  inspect fun disk => semanticThreadHashes env disk.home threads ∅

def validateThreadHashes (expected actual : Std.ExtTreeMap String String) : Except String Unit :=
  ensure (actual.toList = expected.toList) "post-checkout validation mismatch"

def validateCheckoutResult (snapshot : LocalSnapshot) : Access δ Unit := do
  let result ← scanned env
  let expected ← threadHashes env snapshot.threads
  let actual ← threadHashes env result.threads
  Prog.ofExcept (validateThreadHashes expected actual)

def validateCheckoutJournalResult (journal : CheckoutJournal) : Access δ Unit := do
  let result ← scanned env
  let actual ← threadHashes env result.threads
  Prog.ofExcept (validateThreadHashes journal.expectedThreadHashes actual)
  validateFileSwaps env journal.fileSwaps

def applyTrackingUpdate (now : String) (journal : CheckoutJournal) : Access δ Unit :=
  match journal.trackingUpdate with
  | none => pure ()
  | some update => do
      fallible
      let _ ← (Tracking.reconcileCheckout env.codexHomeKey update.remoteId update.namespaceId update.expectedGeneration
        update.integratedHead update.activateNamespace now).zoom (fun device => device.state.tracking)
          (fun tracking device => { device with state := { device.state with tracking := tracking } })

end SessionSync.Checkout
