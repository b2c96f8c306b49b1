import SessionSync.Rollout.Normalize
import SessionSync.Lib.Keyed

set_option autoImplicit false

namespace SessionSync.Rollout

open SessionSync.Core Checked Storage Lib

def byteOrderMark : Char := '\uFEFF'

def maxSessionMetaBytes : Nat := 1024 * 1024

inductive ScanWarningKind where
  | emptyRollout
  | invalidUtf8
  | invalidJson
  | missingSessionMeta
  | missingThreadId
  | duplicateThread
deriving DecidableEq, Repr

structure ScanWarning where
  kind : ScanWarningKind
  path : String
  message : String
deriving DecidableEq, Repr

-- A file under one of the session directories, with its path below the Codex home.
structure RolloutFile where
  path : String
  logicalPath : String
  archived : Bool
  bytes : Bytes
deriving DecidableEq, Repr

structure RolloutRecord where
  threadId : String
  archived : Bool
  cwd : Option String
  modelProvider : Option String
  byteLength : UInt64
  mediaType : String
  logicalPath : Option String
  source : RolloutFile
deriving DecidableEq, Repr

-- std::str::from_utf8.
def decodeUtf8 (bytes : Bytes) : Option (List Char) := bytes.toByteArray.utf8Decode?.map Array.toList

theorem decode_utf8_some (bytes : Bytes) (text : List Char) : decodeUtf8 bytes = some text ↔ utf8 text = bytes := by
  have encoded : ∀ chars : List Char, chars.utf8Encode = (utf8 chars).toByteArray := fun _ => rfl
  constructor
  · intro decoded
    obtain ⟨chars, found, rfl⟩ := Option.map_eq_some_iff.mp decoded
    have valid : bytes.toByteArray.utf8Decode?.isSome := by rw [found]; rfl
    have whole := ByteArray.utf8Encode_get_utf8Decode? (b := bytes.toByteArray) (h := valid)
    simp only [found, Option.get_some, encoded] at whole
    simpa using congrArg (fun array => array.data.toList) whole
  · rintro rfl
    rw [decodeUtf8, ← encoded, List.utf8Decode?_utf8Encode]
    rfl

-- What read_until gives for the first line when `limit` bytes may be read.
def firstLine (limit : Nat) (input : Bytes) : Bytes := (splitAfter newline (input.take limit)).headD []

def stringField (fields : Fields) (key : String) : Option String :=
  ((fieldOf fields key).bind Value.asStr).filter fun value => !isBlank value

section Scanner

variable (reader : Reader) (utf8Error : Bytes → String)

-- A file that is skipped leaves one warning.
def readRolloutRecord (file : RolloutFile) : Except ScanWarning RolloutRecord := do
  let skip := fun kind message => ({ kind := kind, path := file.path, message := message } : ScanWarning)
  ensure (file.bytes ≠ []) (skip .emptyRollout "Empty rollout file was skipped")
  let line := firstLine (maxSessionMetaBytes + 1) file.bytes
  ensure (line.length ≤ maxSessionMetaBytes) (skip .invalidJson "Rollout session metadata exceeds 1048576 bytes")
  let text ← found (decodeUtf8 line) (skip .invalidUtf8 ("Invalid UTF-8 in rollout metadata: " ++ utf8Error line))
  ensure (isBlank (String.ofList text) = false) (skip .emptyRollout "Rollout has no non-empty metadata line")
  let text := text.dropWhile (· = byteOrderMark)
  let value ← (reader.parse (utf8 text)).mapError fun error => skip .invalidJson ("Invalid rollout metadata JSON: " ++ error)
  ensure (isSessionMeta value = true) (skip .missingSessionMeta "First rollout record is not session_meta")
  let payload := (payloadOf value).getD []
  let threadId ← found ((fieldOf payload "id").bind Value.asStr)
    (skip .missingThreadId "session_meta has no string payload.id")
  return { threadId := threadId, archived := file.archived, cwd := stringField payload "cwd",
           modelProvider := stringField payload "model_provider", byteLength := UInt64.ofNat file.bytes.length,
           mediaType := "application/x-ndjson", logicalPath := some file.logicalPath, source := file }

structure Scan where
  rollouts : Std.ExtTreeMap String RolloutRecord
  warnings : List ScanWarning

def scanRollout (scan : Scan) (file : RolloutFile) : Scan :=
  match readRolloutRecord reader utf8Error file with
  | .error warning => { scan with warnings := scan.warnings ++ [warning] }
  | .ok record =>
      if record.threadId ∈ scan.rollouts then
        let message := "Thread " ++ record.threadId ++ " was already discovered; keeping the first rollout"
        { scan with warnings := scan.warnings ++ [⟨.duplicateThread, file.path, message⟩] }
      else { scan with rollouts := scan.rollouts.insert record.threadId record }

-- The loop over the session directories, with the files in the order of the walk.
def scanRollouts (files : List RolloutFile) : Scan := files.foldl (scanRollout reader utf8Error) ⟨∅, []⟩

-- The threads that the scan reports, in the order of their IDs.
def Scan.threads (scan : Scan) : List RolloutRecord := scan.rollouts.toList.map Prod.snd

-- Every listed thread is what the head of its own file was read as.
def Listed (files : List RolloutFile) (scan : Scan) : Prop :=
  ∀ (id : String) (record : RolloutRecord), scan.rollouts[id]? = some record →
    record.threadId = id ∧ record.source ∈ files ∧ readRolloutRecord reader utf8Error record.source = .ok record

theorem record_source (file : RolloutFile) (record : RolloutRecord) (read : readRolloutRecord reader utf8Error file = .ok record) :
    record.source = file := by
  simp only [readRolloutRecord, bind_ok, pure_ok] at read
  obtain ⟨_, _, _, _, _, _, _, _, _, _, _, _, _, _, rfl⟩ := read
  rfl

theorem scan_rollout_listed (files : List RolloutFile) (scan : Scan) (file : RolloutFile) (member : file ∈ files)
    (listed : Listed reader utf8Error files scan) : Listed reader utf8Error files (scanRollout reader utf8Error scan file) := by
  unfold scanRollout
  cases read : readRolloutRecord reader utf8Error file with
  | error warning => exact listed
  | ok record =>
      dsimp only
      by_cases known : record.threadId ∈ scan.rollouts
      · rw [if_pos known]
        exact listed
      · rw [if_neg known]
        intro id other held
        have source := record_source reader utf8Error file record read
        rw [Keyed.lookup_insert] at held
        by_cases same : id = record.threadId
        · rw [if_pos same, Option.some.injEq] at held
          rw [← held]
          exact ⟨same.symm, source ▸ member, source ▸ read⟩
        · rw [if_neg same] at held
          exact listed id other held

theorem scan_rollouts_listed (files : List RolloutFile) : Listed reader utf8Error files (scanRollouts reader utf8Error files) := by
  have run : ∀ (rest : List RolloutFile) (scan : Scan), (∀ file ∈ rest, file ∈ files) → Listed reader utf8Error files scan →
      Listed reader utf8Error files (rest.foldl (scanRollout reader utf8Error) scan) := by
    intro rest
    induction rest with
    | nil => exact fun _ _ listed => listed
    | cons file rest ih =>
        intro scan inside listed
        have later := List.forall_mem_cons.mp inside
        exact ih _ later.2 (scan_rollout_listed reader utf8Error files scan file later.1 listed)
  refine run files _ (fun _ member => member) fun id record held => ?_
  rw [Std.ExtTreeMap.getElem?_empty] at held
  cases held

theorem thread_read (files : List RolloutFile) (record : RolloutRecord)
    (member : record ∈ (scanRollouts reader utf8Error files).threads) :
    record.source ∈ files ∧ readRolloutRecord reader utf8Error record.source = .ok record := by
  obtain ⟨⟨id, held⟩, inside, rfl⟩ := List.mem_map.mp member
  exact (scan_rollouts_listed reader utf8Error files id held (Std.ExtTreeMap.mem_toList_iff_getElem?_eq_some.mp inside)).2

end Scanner

end SessionSync.Rollout
