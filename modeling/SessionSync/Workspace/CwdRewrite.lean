import SessionSync.Core.Canonical
import SessionSync.Lib.Checked
import SessionSync.Rollout.SessionMeta

set_option autoImplicit false

namespace SessionSync.Workspace

open SessionSync.Core Checked Rollout

-- u8::is_ascii_whitespace, which is wider than the blanks of JSON by the form feed.
def isAsciiWhitespace (byte : UInt8) : Bool := byte = 32 || byte = 9 || byte = 10 || byte = 12 || byte = 13

theorem get_bound (input : Bytes) (index : Nat) (byte : UInt8) (found : input[index]? = some byte) : index < input.length :=
  (List.getElem?_eq_some_iff.mp found).1

def skipJsonWhitespace (input : Bytes) (index : Nat) : Nat :=
  match found : input[index]? with
  | none => index
  | some byte => if isAsciiWhitespace byte then skipJsonWhitespace input (index + 1) else index
termination_by input.length - index
decreasing_by
  have := get_bound input index byte found
  omega

def stringLoop (input : Bytes) (index : Nat) : Except String Nat :=
  match found : input[index]? with
  | none => .error "unterminated JSON string"
  | some byte =>
      if byte = 34 then .ok (index + 1)
      else if byte = 92 then stringLoop input (index + 2)
      else stringLoop input (index + 1)
termination_by input.length - index
decreasing_by
  all_goals
    have := get_bound input index byte found
    omega

def skipJsonString (input : Bytes) (start : Nat) : Except String Nat := do
  ensure (input[start]? = some 34) "JSON string does not start with a quote"
  stringLoop input (start + 1)

theorem string_loop_after (input : Bytes) (index next : Nat) (run : stringLoop input index = .ok next) : index < next := by
  fun_induction stringLoop input index with
  | case1 index found => cases run
  | case2 index found =>
      rw [Except.ok.injEq] at run
      omega
  | case3 index found quote ih =>
      have later := ih run
      omega
  | case4 index byte found quote backslash ih =>
      have later := ih run
      omega

theorem skip_string_after (input : Bytes) (start next : Nat) (run : skipJsonString input start = .ok next) : start < next := by
  obtain ⟨_, _, run⟩ := (bind_ok _ _ _).mp run
  have later := string_loop_after input (start + 1) next run
  omega

-- A closing bracket takes the innermost open one off the stack.
def closes (stack : List UInt8) (opening : UInt8) : Bool := stack.head? = some opening

def containerLoop (input : Bytes) (stack : List UInt8) (index : Nat) : Except String Nat :=
  match found : input[index]? with
  | none => .error "unterminated JSON container"
  | some byte =>
      if byte = 34 then
        match skipped : skipJsonString input index with
        | .error error => .error error
        | .ok next => containerLoop input stack next
      else if byte = 123 ∨ byte = 91 then containerLoop input (byte :: stack) (index + 1)
      else if byte = 125 then
        if closes stack 123 = false then .error "mismatched JSON object delimiter"
        else if stack.tail = [] then .ok (index + 1)
        else containerLoop input stack.tail (index + 1)
      else if byte = 93 then
        if closes stack 91 = false then .error "mismatched JSON array delimiter"
        else if stack.tail = [] then .ok (index + 1)
        else containerLoop input stack.tail (index + 1)
      else containerLoop input stack (index + 1)
termination_by input.length - index
decreasing_by
  all_goals
    have := get_bound input index byte found
    first
      | have := skip_string_after input index next skipped
        omega
      | omega

def endsScalar (byte : UInt8) : Bool := byte = 44 || byte = 125 || byte = 93 || isAsciiWhitespace byte

def scalarLoop (input : Bytes) (index : Nat) : Nat :=
  match found : input[index]? with
  | none => index
  | some byte => if endsScalar byte then index else scalarLoop input (index + 1)
termination_by input.length - index
decreasing_by
  have := get_bound input index byte found
  omega

def skipJsonValue (input : Bytes) (start : Nat) : Except String Nat :=
  match input[start]? with
  | none => .error "missing JSON value"
  | some byte =>
      if byte = 34 then skipJsonString input start
      else if byte = 123 ∨ byte = 91 then containerLoop input [byte] (start + 1)
      else if scalarLoop input start = start then .error "empty JSON value"
      else .ok (scalarLoop input start)

-- A slice by a range, which panics where the range leaves the input.
def slice (input : Bytes) (start stop : Nat) : Except String Bytes := do
  ensure (start ≤ stop ∧ stop ≤ input.length) "range out of bounds"
  return (input.drop start).take (stop - start)

-- One turn of the loop over the members of an object.
inductive MemberStep where
  | done (range : Option (Nat × Nat))
  | again (index : Nat)

variable (strings : Bytes → Except String String)

def afterValue (input : Bytes) (valueStart valueEnd : Nat) (found : Bool) : Except String MemberStep :=
  if found then .ok (.done (some (valueStart, valueEnd)))
  else
    let index := skipJsonWhitespace input valueEnd
    if input[index]? = some 44 then .ok (.again (index + 1))
    else if input[index]? = some 125 then .ok (.done none)
    else .error "invalid JSON object terminator"

def readMember (input : Bytes) (targetField : String) (keyStart : Nat) : Except String MemberStep := do
  let keyEnd ← skipJsonString input keyStart
  let bytes ← slice input keyStart keyEnd
  let key ← strings bytes
  let separator := skipJsonWhitespace input keyEnd
  ensure (input[separator]? = some 58) "invalid JSON object member separator"
  let valueStart := skipJsonWhitespace input (separator + 1)
  let valueEnd ← skipJsonValue input valueStart
  afterValue input valueStart valueEnd (key = targetField)

def memberStep (input : Bytes) (targetField : String) (index : Nat) : Except String MemberStep :=
  let keyStart := skipJsonWhitespace input index
  if input[keyStart]? = some 125 then .ok (.done none)
  else if input[keyStart]? = some 34 then readMember strings input targetField keyStart
  else .error "invalid JSON object member"

theorem skip_whitespace_after (input : Bytes) (index : Nat) : index ≤ skipJsonWhitespace input index := by
  fun_induction skipJsonWhitespace input index with
  | case1 index found => exact Nat.le_refl _
  | case2 index byte found blank ih => exact (Nat.le_succ _).trans ih
  | case3 index byte found blank => exact Nat.le_refl _

theorem container_loop_after (input : Bytes) (stack : List UInt8) (index next : Nat)
    (run : containerLoop input stack index = .ok next) :
    index < next := by
  fun_induction containerLoop input stack index with
  | case1 => cases run
  | case2 => cases run
  | case3 stack index middle skipped found ih =>
      have first := skip_string_after input index middle skipped
      have later := ih run
      omega
  | case5 => cases run
  | case8 => cases run
  | case6 =>
      rw [Except.ok.injEq] at run
      omega
  | case9 =>
      rw [Except.ok.injEq] at run
      omega
  | case4 | case7 | case10 | case11 =>
      rename_i ih
      have later := ih run
      omega

theorem scalar_loop_after (input : Bytes) (index : Nat) : index ≤ scalarLoop input index := by
  fun_induction scalarLoop input index with
  | case1 index found => exact Nat.le_refl _
  | case2 index byte found ends => exact Nat.le_refl _
  | case3 index byte found ends ih => exact (Nat.le_succ _).trans ih

theorem skip_value_after (input : Bytes) (start next : Nat) (run : skipJsonValue input start = .ok next) : start < next := by
  unfold skipJsonValue at run
  split at run
  · cases run
  · split at run
    · exact skip_string_after input start next run
    · split at run
      · have later := container_loop_after input _ (start + 1) next run
        omega
      · split at run
        · cases run
        · rename_i moved
          have after := scalar_loop_after input start
          rw [Except.ok.injEq] at run
          omega

theorem read_member_after (input : Bytes) (targetField : String) (keyStart next : Nat)
    (run : readMember strings input targetField keyStart = .ok (.again next)) : keyStart < next := by
  unfold readMember at run
  obtain ⟨keyEnd, skipped, run⟩ := (bind_ok _ _ _).mp run
  obtain ⟨bytes, _, run⟩ := (bind_ok _ _ _).mp run
  obtain ⟨key, _, run⟩ := (bind_ok _ _ _).mp run
  obtain ⟨_, _, run⟩ := (bind_ok _ _ _).mp run
  obtain ⟨valueEnd, value, run⟩ := (bind_ok _ _ _).mp run
  have first := skip_string_after input keyStart keyEnd skipped
  have second := skip_whitespace_after input keyEnd
  have third := skip_whitespace_after input (skipJsonWhitespace input keyEnd + 1)
  have fourth := skip_value_after input _ valueEnd value
  have fifth := skip_whitespace_after input valueEnd
  unfold afterValue at run
  split at run
  · cases run
  · dsimp only at run
    split at run
    · simp only [Except.ok.injEq, MemberStep.again.injEq] at run
      omega
    · split at run <;> cases run

theorem step_after (input : Bytes) (targetField : String) (index next : Nat)
    (run : memberStep strings input targetField index = .ok (.again next)) : index < next ∧ index < input.length := by
  have here := skip_whitespace_after input index
  unfold memberStep at run
  dsimp only at run
  split at run
  · cases run
  · split at run
    · rename_i quote
      have bound := get_bound input _ 34 quote
      have later := read_member_after strings input targetField _ next run
      omega
    · cases run

def memberLoop (input : Bytes) (targetField : String) (index : Nat) : Except String (Option (Nat × Nat)) :=
  match step : memberStep strings input targetField index with
  | .error error => .error error
  | .ok (.done range) => .ok range
  | .ok (.again next) => memberLoop input targetField next
termination_by input.length - index
decreasing_by
  have := step_after strings input targetField index next step
  omega

def findObjectFieldValue (input : Bytes) (objectStart : Nat) (targetField : String) : Except String (Option (Nat × Nat)) := do
  ensure (input[objectStart]? = some 123) "JSON object does not start with an opening brace"
  memberLoop strings input targetField (objectStart + 1)

def bodyEnd (line : Bytes) : Nat :=
  if [13, 10] <:+ line then line.length - 2
  else if [10] <:+ line then line.length - 1
  else line.length

def bom : Bytes := [0xef, 0xbb, 0xbf]

def jsonStart (body : Bytes) : Nat :=
  let start := skipJsonWhitespace body 0
  if (body.drop start).take 3 = bom then skipJsonWhitespace body (start + 3) else start

def replaceCwd (line body : Bytes) (jsonStart : Nat) (targetCwd : String) : Except String Bytes := do
  let text ← slice body jsonStart body.length
  let offset ← found (text.findIdx? (· = 123)) "rollout session metadata is not a JSON object"
  let payload ← findObjectFieldValue strings body (jsonStart + offset) "payload"
  let payloadRange ← found payload "rollout session metadata has no payload field"
  ensure (body[payloadRange.1]? = some 123) "rollout session_meta payload is not a JSON object"
  let cwd ← findObjectFieldValue strings body payloadRange.1 "cwd"
  let cwdRange ← found cwd "rollout session_meta payload has no cwd field"
  let head ← slice body 0 cwdRange.1
  let tail ← slice body cwdRange.2 body.length
  let ending ← slice line (bodyEnd line) line.length
  return head ++ utf8 (writeString targetCwd) ++ tail ++ ending

def rewriteSessionMetaCwd (reader : Reader) (line : Bytes) (threadId targetCwd : String) : Except String Bytes := do
  let body ← slice line 0 (bodyEnd line)
  let text ← slice body (jsonStart body) body.length
  let value ← (reader.parse text).mapError fun _ => "failed to parse rollout session metadata"
  ensure (isSessionMeta value) "first rollout record is not session_meta"
  let payload ← found (payloadOf value) "rollout session_meta payload is not an object"
  ensure ((fieldOf payload "id").bind Value.asStr = some threadId) ("rollout session_meta thread ID does not match " ++ threadId)
  if (fieldOf payload "cwd").bind Value.asStr = some targetCwd then return line
  else replaceCwd strings line body (jsonStart body) targetCwd

end SessionSync.Workspace
