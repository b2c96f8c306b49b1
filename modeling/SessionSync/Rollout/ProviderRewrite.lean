import SessionSync.Rollout.Restamp

set_option autoImplicit false

namespace SessionSync.Rollout

open SessionSync.Core Checked Storage Lib

variable (lib : Primitives) (reader : Reader)

-- read_rollout_provider: the first line whatever its length, with its line ending.
def readRolloutProvider (input : Bytes) : Except String (Option String) := do
  let line := (splitAfter newline input).headD []
  let value ← (reader.parse line).mapError fun _ => "failed to parse rollout session metadata"
  ensure (isSessionMeta value = true) "first rollout record is not session_meta"
  return (get value "payload").bind fun payload => (get payload "model_provider").bind Value.asStr

-- None where the line is kept as it is.
def transformJsonlLine (line : Bytes) (threadId targetProvider : String) (requireThreadIdMatch : Bool) :
    Except String (Option Bytes) :=
  let (body, ending) := splitLineEnding line
  match reader.parse body with
  | .error _ => .ok none
  | .ok value =>
      if isSessionMeta value then do
        let payload ← found (payloadOf value) "rollout session_meta payload is not an object"
        ensure (requireThreadIdMatch = false ∨ (fieldOf payload "id").bind Value.asStr = some threadId)
          ("rollout session_meta thread ID does not match " ++ threadId)
        return some (canonicalJson lib (stamp none targetProvider value payload) ++ ending)
      else .ok none

structure TransformState where
  foundSessionMeta : Bool
  output : Bytes

def transformStep (threadId targetProvider : String) (state : TransformState) (line : Bytes) : Except String TransformState := do
  let transformed ← transformJsonlLine lib reader line threadId targetProvider !state.foundSessionMeta
  let bytes := transformed.getD line
  ensure (state.output.length + bytes.length < 2 ^ 64) "provider-neutral rollout length overflow"
  return { foundSessionMeta := state.foundSessionMeta || transformed.isSome, output := state.output ++ bytes }

-- transform_rollout_file: what it writes and the description it returns.
def transformRolloutFile (input : Bytes) (threadId targetProvider : String) : Except String (Bytes × ChunkDescriptorV4) := do
  let state ← (splitAfter newline input).foldlM (transformStep lib reader threadId targetProvider) ⟨false, []⟩
  ensure (state.foundSessionMeta = true) ("thread " ++ threadId ++ " rollout has no session_meta record")
  return (state.output, { sha256 := digestBytes lib state.output, byteLength := UInt64.ofNat state.output.length })

-- A record that calls itself session_meta and has no object to write the provider into.
def Unwritable (line : Bytes) : Prop :=
  ∃ value, reader.parse (splitLineEnding line).1 = .ok value ∧ isSessionMeta value = true ∧ payloadOf value = none

theorem transform_line_found (line : Bytes) (threadId targetProvider : String) :
    (∃ transformed, transformJsonlLine lib reader line threadId targetProvider false = .ok transformed ∧
      transformed.getD line = stampLine lib reader none targetProvider line) ↔ ¬ Unwritable reader line := by
  unfold transformJsonlLine stampLine sessionOf Unwritable
  dsimp only
  cases reader.parse (splitLineEnding line).1 with
  | error reason => simp
  | ok value =>
      by_cases session : isSessionMeta value = true
      · cases object : payloadOf value with
        | none => simp [session, object, found, bind, Except.bind]
        | some payload => simp [session, object, found, ensure, bind, Except.bind, pure, Except.pure]
      · simp [session]

theorem transform_line_refused (line : Bytes) (threadId targetProvider : String) (unwritable : Unwritable reader line)
    (requireThreadIdMatch : Bool) (transformed : Option Bytes) :
    transformJsonlLine lib reader line threadId targetProvider requireThreadIdMatch ≠ .ok transformed := by
  obtain ⟨value, parsed, session, object⟩ := unwritable
  simp [transformJsonlLine, parsed, session, object, found, bind, Except.bind]

theorem transform_line_first (line : Bytes) (threadId targetProvider : String) (value : Value) (payload : Fields)
    (session : sessionOf reader line = some (value, payload)) (named : (fieldOf payload "id").bind Value.asStr = some threadId) :
    transformJsonlLine lib reader line threadId targetProvider true = .ok (some (stampLine lib reader none targetProvider line)) := by
  obtain ⟨parsed, record⟩ := (session_of_iff line value payload).mp session
  rw [stamp_line_some lib none targetProvider line value payload session]
  simp [transformJsonlLine, parsed, record.1, record.2, named, found, ensure, bind, Except.bind, pure, Except.pure]

theorem transform_rest_writable (threadId targetProvider : String) (rest : List Bytes) (state last : TransformState)
    (run : rest.foldlM (transformStep lib reader threadId targetProvider) state = .ok last) :
    ∀ line ∈ rest, ¬ Unwritable reader line := by
  induction rest generalizing state with
  | nil => exact List.forall_mem_nil _
  | cons line rest ih =>
      rw [List.foldlM_cons, bind_ok] at run
      obtain ⟨middle, step, run⟩ := run
      simp only [transformStep, bind_ok] at step
      obtain ⟨transformed, one, _⟩ := step
      refine List.forall_mem_cons.mpr ⟨fun unwritable => ?_, ih middle run⟩
      exact transform_line_refused lib reader line threadId targetProvider unwritable _ transformed one

-- The lines after the first record go through as long as none is unwritable.
theorem transform_rest (threadId targetProvider : String) (rest : List Bytes) (output : Bytes)
    (writable : ∀ line ∈ rest, ¬ Unwritable reader line)
    (short : output.length + (rest.map (stampLine lib reader none targetProvider)).flatten.length < 2 ^ 64) :
    rest.foldlM (transformStep lib reader threadId targetProvider) ⟨true, output⟩ =
      .ok ⟨true, output ++ (rest.map (stampLine lib reader none targetProvider)).flatten⟩ := by
  induction rest generalizing output with
  | nil =>
      rw [List.map_nil, List.flatten_nil, List.append_nil]
      rfl
  | cons line rest ih =>
      have each := List.forall_mem_cons.mp writable
      rw [List.map_cons, List.flatten_cons, List.length_append] at short
      obtain ⟨transformed, one, stamped⟩ := (transform_line_found lib reader line threadId targetProvider).mpr each.1
      have step : transformStep lib reader threadId targetProvider ⟨true, output⟩ line =
          .ok ⟨true, output ++ stampLine lib reader none targetProvider line⟩ := by
        rw [transformStep, Bool.not_true, one]
        change (ensure _ _ >>= _) = _
        rw [ensured _ _ _ (by rw [stamped]; dsimp only; omega), stamped]
        rfl
      rw [List.foldlM_cons, step, List.map_cons, List.flatten_cons, ← List.append_assoc]
      exact ih _ each.2 (by rw [List.length_append]; omega)

end SessionSync.Rollout
