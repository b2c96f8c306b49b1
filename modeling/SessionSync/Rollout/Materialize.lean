import SessionSync.Rollout.Normalize

set_option autoImplicit false

namespace SessionSync.Rollout

open SessionSync.Core Checked Storage Lib

structure MachineContextV4 where
  configuredProvider : String
  workspacePath : Option String

def trim (text : String) : String :=
  String.ofList ((text.toList.dropWhile isWhitespace).reverse.dropWhile isWhitespace).reverse

def providerCharacter (c : Char) : Bool := c.isAlphanum || c = '_' || c = '-' || c = '.'

def validateProviderIdV4 (provider : String) : Except String String := do
  let provider := trim provider
  ensure (provider ≠ "" ∧ (utf8 provider.toList).length ≤ 128) "provider ID must contain between 1 and 128 characters"
  ensure (provider ≠ providerTokenV4 ∧ provider ≠ workspaceTokenV4) "provider ID uses a reserved v4 normalization token"
  ensure (provider.toList.all providerCharacter = true) "provider ID contains unsupported characters"
  return provider

variable (lib : Primitives) (reader : Reader)

structure MaterializeState where
  found : Bool
  output : Bytes

-- Unlike the normaliser it reads a line of any length.
def materializeStep (threadId : String) (context : MachineContextV4) (state : MaterializeState) (line : Bytes) :
    Except String MaterializeState :=
  match sessionOf reader line with
  | some (value, payload) => do
      ensure (state.found = true ∨ (fieldOf payload "id").bind Value.asStr = some threadId)
        ("materialized rollout thread ID does not match " ++ threadId)
      let cwd := if state.found then none else context.workspacePath
      let bytes := canonicalJson lib (stamp cwd context.configuredProvider value payload) ++ (splitLineEnding line).2
      return { found := true, output := state.output ++ bytes }
  | none => return { state with output := state.output ++ line }

def materializeRolloutBytes (normalized : Bytes) (threadId : String) (context : MachineContextV4) : Except String Bytes := do
  let _ ← validateProviderIdV4 context.configuredProvider
  let state ← (splitAfter newline normalized).foldlM (materializeStep lib reader threadId context) ⟨false, []⟩
  ensure (state.found = true) "normalized rollout has no session_meta record"
  return state.output

def materializedOutput (context : MachineContextV4) (head : Bytes) (rest : List Bytes) : Bytes :=
  stampLine lib reader context.workspacePath context.configuredProvider head ++
    (rest.map (stampLine lib reader none context.configuredProvider)).flatten

theorem materialize_rest (threadId : String) (context : MachineContextV4) (rest : List Bytes) (output : Bytes) :
    rest.foldlM (materializeStep lib reader threadId context) ⟨true, output⟩ =
      .ok ⟨true, output ++ (rest.map (stampLine lib reader none context.configuredProvider)).flatten⟩ := by
  induction rest generalizing output with
  | nil => rw [List.map_nil, List.flatten_nil, List.append_nil]; rfl
  | cons line rest ih =>
      have step : materializeStep lib reader threadId context ⟨true, output⟩ line =
          .ok ⟨true, output ++ stampLine lib reader none context.configuredProvider line⟩ := by
        unfold materializeStep stampLine
        cases sessionOf reader line <;> rfl
      rw [List.foldlM_cons, step, List.map_cons, List.flatten_cons, ← List.append_assoc]
      exact ih _

-- Materialising asks no more of a rollout than its first record.
theorem materialize_ok (threadId : String) (context : MachineContextV4) (provider : String) (input head : Bytes)
    (rest : List Bytes) (value : Value) (payload : Fields)
    (valid : validateProviderIdV4 context.configuredProvider = .ok provider)
    (lines : splitAfter newline input = head :: rest) (session : sessionOf reader head = some (value, payload))
    (named : (fieldOf payload "id").bind Value.asStr = some threadId) :
    materializeRolloutBytes lib reader input threadId context = .ok (materializedOutput lib reader context head rest) := by
  have first : materializeStep lib reader threadId context ⟨false, []⟩ head =
      .ok ⟨true, stampLine lib reader context.workspacePath context.configuredProvider head⟩ := by
    unfold materializeStep stampLine
    rw [session]
    dsimp only
    rw [ensured _ _ _ (Or.inr named)]
    rfl
  unfold materializeRolloutBytes
  rw [valid, lines, List.foldlM_cons, first]
  change ((List.foldlM (materializeStep lib reader threadId context) _ rest) >>= _) = _
  rw [materialize_rest]
  rfl

theorem drop_while_token (text : List Char) (solid : text.all (fun c => !isWhitespace c) = true) :
    text.dropWhile isWhitespace = text := by
  cases text with
  | nil => rfl
  | cons c rest =>
      simp only [List.all_cons, Bool.and_eq_true, Bool.not_eq_true'] at solid
      rw [List.dropWhile_cons_of_neg (by rw [solid.1]; decide)]

-- The normaliser's token is never a valid provider, with or without blanks around it.
theorem valid_provider_not_token (provider trimmed : String) (valid : validateProviderIdV4 provider = .ok trimmed) :
    provider ≠ providerTokenV4 := by
  intro same
  simp only [validateProviderIdV4, bind_ok, ensure_ok, pure_ok] at valid
  obtain ⟨_, _, _, reserved, _⟩ := valid
  have solid : providerTokenV4.toList.all (fun c => !isWhitespace c) = true := by decide +kernel
  have kept : trim providerTokenV4 = providerTokenV4 := by
    rw [trim, drop_while_token _ solid, drop_while_token _ (by rw [List.all_reverse]; exact solid), List.reverse_reverse,
      String.ofList_toList]
  rw [same, kept] at reserved
  exact reserved.1 rfl

end SessionSync.Rollout
