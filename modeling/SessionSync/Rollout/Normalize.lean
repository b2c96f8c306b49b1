import SessionSync.Rollout.SessionMeta
import SessionSync.Rollout.Emission
import SessionSync.Lib.Lines

set_option autoImplicit false

namespace SessionSync.Rollout

open SessionSync.Core Checked Storage Lib

def providerTokenV4 : String := "__codex_session_sync_local_provider_v4__"

def workspaceTokenV4 : String := "__codex_session_sync_local_workspace_v4__"

def maxMetadataLineBytesV4 : Nat := 16 * 1024 * 1024

def newline : UInt8 := 10

inductive FirstRecordState where
  | missing
  | found
deriving DecidableEq, Repr

structure NormalizationWarningV4 where
  line : Nat
  kind : String
  message : String
deriving DecidableEq, Repr

structure NormalizedRolloutV4 where
  logicalSha256 : String
  byteLength : UInt64
  chunks : List ChunkDescriptorV4
  warnings : List NormalizationWarningV4
  normalizedBytes : Bytes

def splitLineEnding (line : Bytes) : Bytes × Bytes :=
  if [13, 10].isSuffixOf line then (line.take (line.length - 2), [13, 10])
  else if [10].isSuffixOf line then (line.take (line.length - 1), [10])
  else (line, [])

variable (lib : Primitives) (reader : Reader)

-- What becomes of one line: the new state, a warning and the bytes to write.
def normalizeLine (threadId : String) (lineNumber : Nat) (line : Bytes) (first : FirstRecordState) :
    Except String (FirstRecordState × Option NormalizationWarningV4 × Bytes) :=
  if line.length > maxMetadataLineBytesV4 then do
    ensure (first = .found) "rollout metadata line exceeds 16777216 bytes"
    return (first, some ⟨lineNumber, "oversized_line", "line was preserved without parsing"⟩, line)
  else
    let (body, ending) := splitLineEnding line
    match reader.parse body with
    | .ok value =>
        if isSessionMeta value then
          match payloadOf value with
          | some payload => do
              ensure (first = .found ∨ (fieldOf payload "id").bind Value.asStr = some threadId)
                ("rollout session_meta thread ID does not match " ++ threadId)
              let cwd := if first = .missing then some workspaceTokenV4 else none
              return (.found, none, canonicalJson lib (stamp cwd providerTokenV4 value payload) ++ ending)
          | none => do
              ensure (first = .found) "rollout session_meta payload is not an object"
              return (first, some ⟨lineNumber, "invalid_session_meta", "payload is not an object"⟩, line)
        else do
          ensure (first = .found) "first valid rollout record must be session_meta"
          return (first, none, line)
    | .error reason => do
        ensure (first = .found) ("first rollout record is not valid JSON: " ++ reason)
        return (first, some ⟨lineNumber, "invalid_json", "malformed JSON preserved byte-for-byte"⟩, line)

variable {chunkSize : Nat}

structure NormalizeState (chunkSize : Nat) where
  lineNumber : Nat
  first : FirstRecordState
  warnings : List NormalizationWarningV4
  emission : Emission chunkSize

def normalizeStep (threadId : String) (state : NormalizeState chunkSize) (line : Bytes) :
    Except String (NormalizeState chunkSize) := do
  let (first, warning, bytes) ← normalizeLine lib reader threadId (state.lineNumber + 1) line state.first
  let emission ← emitBytes lib bytes state.emission
  return { lineNumber := state.lineNumber + 1, first, warnings := state.warnings ++ warning.toList, emission }

-- What is left in the buffer becomes the last chunk.
def Emission.flush (state : Emission chunkSize) : Except String (Emission chunkSize) :=
  if state.pending = [] then .ok state else emitChunk lib state.pending state

def Emission.close (state : Emission chunkSize) : Except String (Emission chunkSize) := do
  let closed ← state.flush lib
  ensure (closed.total.toNat ≤ maxLogicalContentBytesV4) "normalized rollout exceeds 68719476736 bytes"
  return closed

-- The result before the byte helper fills in what its sink has collected.
def Emission.rollout (state : Emission chunkSize) (warnings : List NormalizationWarningV4) : NormalizedRolloutV4 :=
  { logicalSha256 := digestBytes lib state.sunk.flatten
    byteLength := state.total
    chunks := state.chunks
    warnings := warnings
    normalizedBytes := [] }

def normalizeRolloutReader (threadId : String) (chunkSize : Nat) (input : Bytes) :
    Except String (NormalizedRolloutV4 × List Bytes) := do
  ensure (isBlank threadId = false) "thread ID must not be empty"
  if positive : 0 < chunkSize then do
    let start : NormalizeState chunkSize :=
      { lineNumber := 0, first := .missing, warnings := [], emission := Emission.start positive }
    let state ← (splitAfter newline input).foldlM (normalizeStep lib reader threadId) start
    ensure (state.first = .found) "rollout has no valid session_meta record"
    let emission ← state.emission.close lib
    return (emission.rollout lib state.warnings, emission.sunk)
  else throw "chunk size must not be zero"

def normalizeRolloutBytes (threadId : String) (bytes : Bytes) : Except String NormalizedRolloutV4 := do
  let (rollout, sunk) ← normalizeRolloutReader lib reader threadId chunkSizeV4.toNat bytes
  return { rollout with normalizedBytes := sunk.flatten }

-- The session_meta record of a line, if it is one with an object payload.
def sessionOf (line : Bytes) : Option (Value × Fields) :=
  match reader.parse (splitLineEnding line).1 with
  | .ok value => if isSessionMeta value then (payloadOf value).map fun payload => (value, payload) else none
  | .error _ => none

def stampLine (cwd : Option String) (provider : String) (line : Bytes) : Bytes :=
  match sessionOf reader line with
  | some (value, payload) => canonicalJson lib (stamp cwd provider value payload) ++ (splitLineEnding line).2
  | none => line

def normalizedLine (cwd : Option String) (line : Bytes) : Bytes :=
  if line.length > maxMetadataLineBytesV4 then line else stampLine lib reader cwd providerTokenV4 line

-- The record that has to come first.
structure FirstRecord (threadId : String) (line : Bytes) : Prop where
  short : line.length ≤ maxMetadataLineBytesV4
  session : ∃ value payload, sessionOf reader line = some (value, payload) ∧
    (fieldOf payload "id").bind Value.asStr = some threadId

theorem normalize_line_found (threadId : String) (lineNumber : Nat) (line : Bytes) :
    ∃ warning, normalizeLine lib reader threadId lineNumber line .found =
      .ok (.found, warning, normalizedLine lib reader none line) := by
  unfold normalizeLine normalizedLine stampLine sessionOf
  by_cases long : line.length > maxMetadataLineBytesV4
  · rw [if_pos long, if_pos long]
    exact ⟨_, rfl⟩
  · rw [if_neg long, if_neg long]
    dsimp only
    cases reader.parse (splitLineEnding line).1 with
    | error reason => exact ⟨_, rfl⟩
    | ok value =>
        dsimp only
        by_cases session : isSessionMeta value = true
        · rw [if_pos session, if_pos session]
          cases payloadOf value with
          | none => exact ⟨_, rfl⟩
          | some payload => exact ⟨_, rfl⟩
        · rw [if_neg session, if_neg session]
          exact ⟨_, rfl⟩

theorem first_needs_session (threadId : String) (line : Bytes) (absent : sessionOf reader line = none) :
    ¬ FirstRecord reader threadId line := by
  intro record
  obtain ⟨_, _, found, _⟩ := record.session
  rw [absent] at found
  cases found

theorem missing_refused {β : Type} (reason : String) (next : Unit → Except String β) (result : β) :
    (ensure (FirstRecordState.missing = .found) reason >>= next) ≠ .ok result := by
  simp only [ne_eq, bind_ok, ensure_ok, reduceCtorEq, false_and, exists_false, not_false_eq_true]

theorem normalize_line_missing (threadId : String) (lineNumber : Nat) (line : Bytes) (first : FirstRecordState)
    (warning : Option NormalizationWarningV4) (bytes : Bytes) :
    normalizeLine lib reader threadId lineNumber line .missing = .ok (first, warning, bytes) ↔
      FirstRecord reader threadId line ∧ first = .found ∧ warning = none ∧
        bytes = normalizedLine lib reader (some workspaceTokenV4) line := by
  unfold normalizeLine normalizedLine stampLine
  by_cases long : line.length > maxMetadataLineBytesV4
  · rw [if_pos long]
    exact iff_of_false (missing_refused _ _ _) fun held => absurd held.1.short (Nat.not_le.mpr long)
  rw [if_neg long, if_neg long]
  dsimp only
  cases parsed : reader.parse (splitLineEnding line).1 with
  | error reason =>
      have absent : sessionOf reader line = none := by rw [sessionOf, parsed]
      exact iff_of_false (missing_refused _ _ _) fun held => first_needs_session reader threadId line absent held.1
  | ok value =>
      have known : sessionOf reader line =
          if isSessionMeta value then (payloadOf value).map fun payload => (value, payload) else none := by
        rw [sessionOf, parsed]
      dsimp only
      by_cases session : isSessionMeta value = true
      · rw [if_pos session] at known ⊢
        cases object : payloadOf value with
        | none =>
            rw [object, Option.map_none] at known
            exact iff_of_false (missing_refused _ _ _) fun held => first_needs_session reader threadId line known held.1
        | some payload =>
            rw [object, Option.map_some] at known
            have record : FirstRecord reader threadId line ↔ (fieldOf payload "id").bind Value.asStr = some threadId := by
              refine ⟨fun record => ?_, fun same => ⟨Nat.le_of_not_gt long, value, payload, known, same⟩⟩
              obtain ⟨_, _, found, same⟩ := record.session
              rw [known, Option.some.injEq, Prod.mk.injEq] at found
              rwa [found.2]
            simp only [bind_ok, ensure_ok, pure_ok, reduceCtorEq, false_or, if_true, Prod.mk.injEq, known, record,
              exists_const, @eq_comm _ first, @eq_comm _ warning, @eq_comm _ bytes]
      · rw [if_neg session] at known ⊢
        exact iff_of_false (missing_refused _ _ _) fun held => first_needs_session reader threadId line known held.1

theorem step_found (threadId : String) (line : Bytes) (state : NormalizeState chunkSize) (found : state.first = .found) :
    ∃ warnings, normalizeStep lib reader threadId state line =
      (emitBytes lib (normalizedLine lib reader none line) state.emission).map fun emission =>
        { lineNumber := state.lineNumber + 1, first := .found, warnings, emission } := by
  obtain ⟨warning, taken⟩ := normalize_line_found lib reader threadId (state.lineNumber + 1) line
  refine ⟨state.warnings ++ warning.toList, ?_⟩
  unfold normalizeStep
  rw [found, taken]
  change (emitBytes lib (normalizedLine lib reader none line) state.emission >>= _) = _
  cases emitBytes lib (normalizedLine lib reader none line) state.emission <;> rfl

theorem step_missing (threadId : String) (line : Bytes) (state : NormalizeState chunkSize) (missing : state.first = .missing)
    (record : FirstRecord reader threadId line) :
    normalizeStep lib reader threadId state line =
      (emitBytes lib (normalizedLine lib reader (some workspaceTokenV4) line) state.emission).map fun emission =>
        { lineNumber := state.lineNumber + 1, first := .found, warnings := state.warnings ++ [], emission } := by
  have taken := (normalize_line_missing lib reader threadId (state.lineNumber + 1) line .found none _).mpr
    ⟨record, rfl, rfl, rfl⟩
  unfold normalizeStep
  rw [missing, taken]
  change (emitBytes lib (normalizedLine lib reader _ line) state.emission >>= _) = _
  cases emitBytes lib (normalizedLine lib reader (some workspaceTokenV4) line) state.emission <;> rfl

-- Once the first record is found every line is taken, and only its bytes can stop the run.
theorem normalize_rest (threadId : String) (rest : List Bytes) (state : NormalizeState chunkSize)
    (found : state.first = .found) :
    ∃ lineNumber warnings, rest.foldlM (normalizeStep lib reader threadId) state =
      (emitBytes lib (rest.map (normalizedLine lib reader none)).flatten state.emission).map fun emission =>
        { lineNumber, first := .found, warnings, emission } := by
  induction rest generalizing state with
  | nil =>
      obtain ⟨lineNumber, first, warnings, emission⟩ := state
      cases found
      refine ⟨lineNumber, warnings, ?_⟩
      rw [List.map_nil, List.flatten_nil, emit_bytes_nil]
      rfl
  | cons line rest ih =>
      obtain ⟨warnings, step⟩ := step_found lib reader threadId line state found
      rw [List.foldlM_cons, List.map_cons, List.flatten_cons, emit_bytes_append, step]
      cases emitBytes lib (normalizedLine lib reader none line) state.emission with
      | error reason => exact ⟨0, [], rfl⟩
      | ok emission => exact ih { lineNumber := state.lineNumber + 1, first := .found, warnings, emission } rfl

-- What the emission makes of an output, whichever lines it came from.
def sealOutput (chunkSize : Nat) (positive : 0 < chunkSize) (output : Bytes) : Except String (Emission chunkSize) := do
  let emission ← emitBytes lib output (Emission.start positive)
  emission.close lib

theorem chunk_size_positive : 0 < chunkSizeV4.toNat := by decide

-- The lines of an accepted rollout and what is written for them.
structure Accepts (threadId : String) (input : Bytes) (head : Bytes) (rest : List Bytes) : Prop where
  named : isBlank threadId = false
  lines : splitAfter newline input = head :: rest
  first : FirstRecord reader threadId head

def normalizedOutput (head : Bytes) (rest : List Bytes) : Bytes :=
  normalizedLine lib reader (some workspaceTokenV4) head ++ (rest.map (normalizedLine lib reader none)).flatten

theorem normalize_accepts (threadId : String) (positive : 0 < chunkSize) (input : Bytes)
    (result : NormalizedRolloutV4 × List Bytes)
    (run : normalizeRolloutReader lib reader threadId chunkSize input = .ok result) :
    ∃ head rest, Accepts reader threadId input head rest := by
  unfold normalizeRolloutReader at run
  rw [dif_pos positive] at run
  simp only [bind_ok, ensure_ok, pure_ok] at run
  obtain ⟨_, named, state, fold, _, found, _⟩ := run
  cases lines : splitAfter newline input with
  | nil =>
      rw [lines] at fold
      cases fold
      cases found
  | cons head rest =>
      rw [lines, List.foldlM_cons, bind_ok] at fold
      obtain ⟨middle, first, _⟩ := fold
      simp only [normalizeStep, bind_ok] at first
      obtain ⟨⟨kind, warning, bytes⟩, record, _⟩ := first
      exact ⟨head, rest, named, lines, ((normalize_line_missing lib reader threadId 1 head kind warning bytes).mp record).1⟩

theorem normalize_lines (threadId : String) (head : Bytes) (rest : List Bytes) (state : NormalizeState chunkSize)
    (missing : state.first = .missing) (record : FirstRecord reader threadId head) :
    ∃ lineNumber warnings, (head :: rest).foldlM (normalizeStep lib reader threadId) state =
      (emitBytes lib (normalizedOutput lib reader head rest) state.emission).map fun emission =>
        { lineNumber, first := .found, warnings, emission } := by
  rw [List.foldlM_cons, normalizedOutput, emit_bytes_append, step_missing lib reader threadId head state missing record]
  cases emitBytes lib (normalizedLine lib reader (some workspaceTokenV4) head) state.emission with
  | error reason => exact ⟨0, [], rfl⟩
  | ok emission =>
      exact normalize_rest lib reader threadId rest
        { lineNumber := state.lineNumber + 1, first := .found, warnings := state.warnings ++ [], emission } rfl

-- A run over accepted lines depends on nothing but the bytes written for them.
theorem normalize_run (threadId : String) (positive : 0 < chunkSize) (input head : Bytes) (rest : List Bytes)
    (accepts : Accepts reader threadId input head rest) :
    ∃ warnings, normalizeRolloutReader lib reader threadId chunkSize input =
      (sealOutput lib chunkSize positive (normalizedOutput lib reader head rest)).map fun emission =>
        (emission.rollout lib warnings, emission.sunk) := by
  obtain ⟨lineNumber, warnings, fold⟩ := normalize_lines lib reader threadId head rest
    { lineNumber := 0, first := .missing, warnings := [], emission := Emission.start positive } rfl accepts.first
  refine ⟨warnings, ?_⟩
  unfold normalizeRolloutReader sealOutput
  rw [ensured _ _ _ accepts.named, dif_pos positive, accepts.lines]
  dsimp only
  rw [fold]
  dsimp only
  cases emitBytes lib (normalizedOutput lib reader head rest) (Emission.start positive) with
  | error reason => rfl
  | ok emission =>
      change (emission.close lib >>= _) = Except.map _ (emission.close lib)
      cases emission.close lib <;> rfl

theorem close_written (state closed : Emission chunkSize) (run : state.close lib = .ok closed) :
    closed.sunk.flatten = state.written := by
  simp only [Emission.close, bind_ok, ensure_ok, pure_ok] at run
  obtain ⟨emitted, last, _, _, rfl⟩ := run
  unfold Emission.flush at last
  by_cases empty : state.pending = []
  · rw [if_pos empty, Except.ok.injEq] at last
    rw [← last, Emission.written, empty, List.append_nil]
  · rw [if_neg empty] at last
    obtain ⟨_, _, rfl⟩ := emit_chunk_ok lib _ state emitted last
    simp [Emission.written]

theorem seal_written (positive : 0 < chunkSize) (output : Bytes) (closed : Emission chunkSize)
    (run : sealOutput lib chunkSize positive output = .ok closed) : closed.sunk.flatten = output := by
  rw [sealOutput, bind_ok] at run
  obtain ⟨emission, written, last⟩ := run
  have whole := (emit_bytes_ok lib output _ emission (start_counted lib positive) written).2
  rw [close_written lib emission closed last, whole]
  rfl

-- Within both limits any output is taken.
theorem seal_accepts (positive : 0 < chunkSize) (output : Bytes)
    (chunksFit : output.length ≤ maxChunksPerContentV4 * chunkSize) (small : output.length ≤ maxLogicalContentBytesV4) :
    ∃ closed, sealOutput lib chunkSize positive output = .ok closed := by
  have short : output.length < 2 ^ 64 := Nat.lt_of_le_of_lt small (by decide)
  obtain ⟨emission, run⟩ := emit_bytes_accepts lib output (Emission.start positive) (start_counted lib positive)
    (by simpa [Emission.written, Emission.start] using chunksFit) (by simpa [Emission.written, Emission.start] using short)
  obtain ⟨counted, whole⟩ := emit_bytes_ok lib output _ emission (start_counted lib positive) run
  have length : emission.chunks.length * chunkSize + emission.pending.length = output.length := by
    rw [← written_length lib emission counted, whole]
    rfl
  have total : emission.total.toNat = emission.chunks.length * chunkSize := by
    rw [counted.total, flatten_full _ counted.full, counted.chunks, List.length_map]
  rw [sealOutput, run]
  change ∃ closed, emission.close lib = .ok closed
  unfold Emission.close Emission.flush
  by_cases empty : emission.pending = []
  · have bound : emission.total.toNat ≤ maxLogicalContentBytesV4 := by omega
    rw [if_pos empty]
    change ∃ closed, (ensure _ _ >>= _) = .ok closed
    rw [ensured _ _ _ bound]
    exact ⟨_, rfl⟩
  · obtain ⟨emitted, last⟩ := emit_chunk_accepts lib emission.pending emission counted (by omega) empty (by omega)
    have after := (emit_chunk_ok lib _ emission emitted last).2.2
    have bound : emitted.total.toNat ≤ maxLogicalContentBytesV4 := by
      have pendingLength : (UInt64.ofNat emission.pending.length).toNat = emission.pending.length :=
        UInt64.toNat_ofNat_of_lt' (show emission.pending.length < 2 ^ 64 by omega)
      rw [after, UInt64.toNat_add, pendingLength]
      omega
    rw [if_neg empty, last]
    change ∃ closed, (ensure _ _ >>= _) = .ok closed
    rw [ensured _ _ _ bound]
    exact ⟨_, rfl⟩

-- An accepted rollout is normalised whenever its output keeps within the size limit.
theorem normalize_fits (threadId : String) (input head : Bytes) (rest : List Bytes)
    (accepts : Accepts reader threadId input head rest)
    (small : (normalizedOutput lib reader head rest).length ≤ maxLogicalContentBytesV4) :
    ∃ result, normalizeRolloutBytes lib reader threadId input = .ok result := by
  have limits : maxChunksPerContentV4 * chunkSizeV4.toNat = maxLogicalContentBytesV4 := by decide
  obtain ⟨closed, closing⟩ := seal_accepts lib chunk_size_positive _ (limits ▸ small) small
  obtain ⟨warnings, run⟩ := normalize_run lib reader threadId chunk_size_positive input head rest accepts
  rw [closing] at run
  rw [normalizeRolloutBytes, run]
  exact ⟨_, rfl⟩

-- Two results that differ at most in the warnings of their runs.
def SameContent (left right : NormalizedRolloutV4) : Prop := left = { right with warnings := left.warnings }

theorem normalize_bytes_output (threadId : String) (input : Bytes) (result : NormalizedRolloutV4)
    (run : normalizeRolloutBytes lib reader threadId input = .ok result) :
    ∃ head rest, Accepts reader threadId input head rest ∧ result.normalizedBytes = normalizedOutput lib reader head rest := by
  simp only [normalizeRolloutBytes, bind_ok, pure_ok] at run
  obtain ⟨⟨rollout, sunk⟩, reading, rfl⟩ := run
  obtain ⟨head, rest, accepts⟩ := normalize_accepts lib reader threadId chunk_size_positive input _ reading
  obtain ⟨warnings, ran⟩ := normalize_run lib reader threadId chunk_size_positive input head rest accepts
  refine ⟨head, rest, accepts, ?_⟩
  rw [ran] at reading
  cases closing : sealOutput lib chunkSizeV4.toNat chunk_size_positive (normalizedOutput lib reader head rest) with
  | error reason =>
      rw [closing] at reading
      cases reading
  | ok closed =>
      rw [closing] at reading
      cases reading
      exact seal_written lib chunk_size_positive _ closed closing

-- Inputs whose lines are written alike have one result.
theorem normalize_same_output (threadId : String) (input other head : Bytes) (rest : List Bytes) (result : NormalizedRolloutV4)
    (run : normalizeRolloutBytes lib reader threadId input = .ok result) (accepts : Accepts reader threadId other head rest)
    (same : normalizedOutput lib reader head rest = result.normalizedBytes) :
    ∃ again, normalizeRolloutBytes lib reader threadId other = .ok again ∧ SameContent again result := by
  obtain ⟨first, later, accepted, output⟩ := normalize_bytes_output lib reader threadId input result run
  obtain ⟨warnings, ran⟩ := normalize_run lib reader threadId chunk_size_positive input first later accepted
  obtain ⟨others, reran⟩ := normalize_run lib reader threadId chunk_size_positive other head rest accepts
  rw [same, output] at reran
  unfold normalizeRolloutBytes at run ⊢
  rw [ran] at run
  rw [reran]
  cases closing : sealOutput lib chunkSizeV4.toNat chunk_size_positive (normalizedOutput lib reader first later) with
  | error reason =>
      rw [closing] at run
      cases run
  | ok closed =>
      rw [closing] at run
      cases run
      exact ⟨_, rfl, rfl⟩

end SessionSync.Rollout
