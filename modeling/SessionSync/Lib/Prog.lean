import Mathlib.Logic.Relation

set_option autoImplicit false

-- A program of atomic actions on a shared state. What happens between two actions
-- is pure; whatever else runs may change the state there.
inductive Prog (σ ε α : Type) : Type 1 where
  | ret (value : α)
  | fail (error : ε)
  | act {β : Type} (step : σ → β × σ) (next : β → Prog σ ε α)

namespace Prog

variable {σ ε ε' α β : Type}

def bind : Prog σ ε α → (α → Prog σ ε β) → Prog σ ε β
  | .ret value, next => next value
  | .fail error, _ => .fail error
  | .act step rest, next => .act step fun answer => (rest answer).bind next

instance : Monad (Prog σ ε) where
  pure := .ret
  bind := Prog.bind

def ofExcept : Except ε α → Prog σ ε α
  | .ok value => .ret value
  | .error error => .fail error

-- One action that either commits or leaves the state as it was.
def attemptStep (run : σ → Except ε (α × σ)) (state : σ) : Except ε α × σ :=
  match run state with
  | .ok (value, after) => (.ok value, after)
  | .error error => (.error error, state)

def transact (run : σ → Except ε (α × σ)) : Prog σ ε α := .act (attemptStep run) ofExcept

def read (look : σ → Except ε α) : Prog σ ε α := .act (fun state => (look state, state)) ofExcept

def query (look : σ → α) : Prog σ ε α := .act (fun state => (look state, state)) .ret

def update (change : σ → σ) : Prog σ ε Unit := .act (fun state => ((), change state)) .ret

def mapError (wrap : ε → ε') : Prog σ ε α → Prog σ ε' α
  | .ret value => .ret value
  | .fail error => .fail (wrap error)
  | .act step rest => .act step fun answer => (rest answer).mapError wrap

-- The outcome as a value: what a caller that inspects a Result goes on with.
def attempt : Prog σ ε α → Prog σ ε' (Except ε α)
  | .ret value => .ret (.ok value)
  | .fail error => .ret (.error error)
  | .act step rest => .act step fun answer => (rest answer).attempt

-- An undisturbed run.
def exec : Prog σ ε α → σ → Except ε α × σ
  | .ret value, state => (.ok value, state)
  | .fail error, state => (.error error, state)
  | .act step rest, state => (rest (step state).1).exec (step state).2

-- The states in which an undisturbed run can be cut off.
def Cut : Prog σ ε α → σ → σ → Prop
  | .ret _, state, seen => seen = state
  | .fail _, state, seen => seen = state
  | .act step rest, state, seen => seen = state ∨ (rest (step state).1).Cut (step state).2 seen

-- A claim about the value alone: a program that fails owes nothing more.
def okay (post : α → σ → Prop) (outcome : Except ε α) (state : σ) : Prop := ∀ value, outcome = .ok value → post value state

section Wp

variable (inv : σ → Prop) (rely guar : σ → σ → Prop)

-- Between any two actions others may move the state along `rely`, keeping `inv`;
-- every action of the program keeps to `guar`, and the outcome satisfies `post`.
def Wp : Prog σ ε α → (Except ε α → σ → Prop) → σ → Prop
  | .ret value, post, state => ∀ seen, rely state seen → inv seen → post (.ok value) seen
  | .fail error, post, state => ∀ seen, rely state seen → inv seen → post (.error error) seen
  | .act step rest, post, state => ∀ seen, rely state seen → inv seen →
      guar seen (step seen).2 ∧ (rest (step seen).1).Wp post (step seen).2

variable {inv rely guar}

theorem wp_mono (prog : Prog σ ε α) (strong weak : Except ε α → σ → Prop) (state : σ)
    (imp : ∀ outcome seen, strong outcome seen → weak outcome seen) (holds : prog.Wp inv rely guar strong state) :
    prog.Wp inv rely guar weak state := by
  induction prog generalizing state with
  | ret value => exact fun seen moved kept => imp _ seen (holds seen moved kept)
  | fail error => exact fun seen moved kept => imp _ seen (holds seen moved kept)
  | act step rest ih =>
      intro seen moved kept
      obtain ⟨keeps, later⟩ := holds seen moved kept
      exact ⟨keeps, ih _ _ later⟩

theorem wp_rely (trans : ∀ a b c, rely a b → rely b c → rely a c) (prog : Prog σ ε α) (post : Except ε α → σ → Prop)
    (state seen : σ) (moved : rely state seen) (holds : prog.Wp inv rely guar post state) :
    prog.Wp inv rely guar post seen := by
  cases prog with
  | ret value => exact fun later more => holds later (trans _ _ _ moved more)
  | fail error => exact fun later more => holds later (trans _ _ _ moved more)
  | act step rest => exact fun later more => holds later (trans _ _ _ moved more)

-- What holds wherever others may have moved the state to already holds here.
theorem wp_stutter (refl : ∀ a, rely a a) (prog : Prog σ ε α) (post : Except ε α → σ → Prop) (state : σ)
    (later : ∀ seen, rely state seen → inv seen → prog.Wp inv rely guar post seen) : prog.Wp inv rely guar post state := by
  cases prog with
  | ret value => exact fun seen moved kept => later seen moved kept seen (refl seen) kept
  | fail error => exact fun seen moved kept => later seen moved kept seen (refl seen) kept
  | act step rest => exact fun seen moved kept => later seen moved kept seen (refl seen) kept

theorem wp_bind (refl : ∀ a, rely a a) (prog : Prog σ ε α) (next : α → Prog σ ε β) (post : Except ε β → σ → Prop) (state : σ)
    (first : prog.Wp inv rely guar (fun outcome seen =>
      match outcome with
      | .ok value => (next value).Wp inv rely guar post seen
      | .error error => post (.error error) seen) state) : (prog >>= next).Wp inv rely guar post state := by
  induction prog generalizing state with
  | ret value => exact wp_stutter refl (next value) post state first
  | fail error => exact first
  | act step rest ih =>
      intro seen moved kept
      obtain ⟨keeps, later⟩ := first seen moved kept
      exact ⟨keeps, ih _ _ later⟩

theorem wp_of_except (result : Except ε α) (post : Except ε α → σ → Prop) (state : σ)
    (holds : ∀ seen, rely state seen → inv seen → post result seen) : (ofExcept result).Wp inv rely guar post state := by
  cases result <;> exact holds

theorem wp_seq (refl : ∀ a, rely a a) (prog : Prog σ ε α) (next : α → Prog σ ε β) (post : β → σ → Prop) (state : σ)
    (first : prog.Wp inv rely guar (okay fun value seen => (next value).Wp inv rely guar (okay post) seen) state) :
    (prog >>= next).Wp inv rely guar (okay post) state := by
  apply wp_bind refl
  refine wp_mono prog _ _ state (fun outcome seen holds => ?_) first
  cases outcome with
  | ok value => exact holds value rfl
  | error error => exact nofun

theorem wp_map (f : α → β) (prog : Prog σ ε α) (post : β → σ → Prop) (state : σ)
    (holds : prog.Wp inv rely guar (okay fun value => post (f value)) state) : (f <$> prog).Wp inv rely guar (okay post) state := by
  induction prog generalizing state with
  | ret value =>
      intro seen moved kept found same
      cases same
      exact holds seen moved kept value rfl
  | fail error => exact fun _ _ _ _ => nofun
  | act step rest ih =>
      intro seen moved kept
      obtain ⟨keeps, later⟩ := holds seen moved kept
      exact ⟨keeps, ih _ _ later⟩

theorem wp_pure (value : α) (post : α → σ → Prop) (state : σ) (holds : ∀ seen, rely state seen → inv seen → post value seen) :
    (pure value : Prog σ ε α).Wp inv rely guar (okay post) state := by
  intro seen moved kept found same
  cases same
  exact holds seen moved kept

theorem wp_check (result : Except ε α) (post : α → σ → Prop) (state : σ)
    (holds : ∀ value, result = .ok value → ∀ seen, rely state seen → inv seen → post value seen) :
    (ofExcept result).Wp inv rely guar (okay post) state := by
  apply wp_of_except
  intro seen moved kept value same
  exact holds value same seen moved kept

theorem wp_transact (run : σ → Except ε (α × σ)) (post : α → σ → Prop) (state : σ) (idle : ∀ seen, inv seen → guar seen seen)
    (commits : ∀ seen value after, rely state seen → inv seen → run seen = .ok (value, after) →
      guar seen after ∧ ∀ last, rely after last → inv last → post value last) :
    (transact run).Wp inv rely guar (okay post) state := by
  intro seen moved kept
  unfold attemptStep
  cases outcome : run seen with
  | error error => exact ⟨idle seen kept, wp_of_except _ _ seen fun _ _ _ _ => nofun⟩
  | ok pair =>
      obtain ⟨keeps, ends⟩ := commits seen pair.1 pair.2 moved kept outcome
      refine ⟨keeps, wp_of_except _ _ pair.2 fun last later still value same => ?_⟩
      cases same
      exact ends last later still

theorem wp_read (look : σ → Except ε α) (post : α → σ → Prop) (state : σ) (idle : ∀ seen, inv seen → guar seen seen)
    (holds : ∀ seen value, rely state seen → inv seen → look seen = .ok value →
      ∀ last, rely seen last → inv last → post value last) : (read look).Wp inv rely guar (okay post) state := by
  intro seen moved kept
  exact ⟨idle seen kept, wp_check _ _ seen fun value found => holds seen value moved kept found⟩

theorem wp_act {β : Type} (step : σ → β × σ) (post : β → σ → Prop) (state : σ)
    (holds : ∀ seen, rely state seen → inv seen → guar seen (step seen).2 ∧
      ∀ last, rely (step seen).2 last → inv last → post (step seen).1 last) :
    (Prog.act step .ret : Prog σ ε β).Wp inv rely guar (okay post) state := by
  intro seen moved kept
  obtain ⟨keeps, ends⟩ := holds seen moved kept
  exact ⟨keeps, wp_pure _ _ _ ends⟩

-- Total correctness: the program comes to a value, and the value satisfies the claim.
def sure (post : α → σ → Prop) (outcome : Except ε α) (state : σ) : Prop := ∃ value, outcome = .ok value ∧ post value state

theorem sure_seq (refl : ∀ a, rely a a) (prog : Prog σ ε α) (next : α → Prog σ ε β) (post : β → σ → Prop) (state : σ)
    (first : prog.Wp inv rely guar (sure fun value seen => (next value).Wp inv rely guar (sure post) seen) state) :
    (prog >>= next).Wp inv rely guar (sure post) state := by
  apply wp_bind refl
  refine wp_mono prog _ _ state (fun outcome seen holds => ?_) first
  obtain ⟨value, rfl, later⟩ := holds
  exact later

theorem sure_pure (value : α) (post : α → σ → Prop) (state : σ) (holds : ∀ seen, rely state seen → inv seen → post value seen) :
    (pure value : Prog σ ε α).Wp inv rely guar (sure post) state := fun seen moved kept => ⟨value, rfl, holds seen moved kept⟩

theorem sure_check (result : Except ε α) (value : α) (passes : result = .ok value) (post : α → σ → Prop) (state : σ)
    (holds : ∀ seen, rely state seen → inv seen → post value seen) : (ofExcept result).Wp inv rely guar (sure post) state := by
  rw [passes]
  exact sure_pure value post state holds

theorem sure_act {β : Type} (step : σ → β × σ) (post : β → σ → Prop) (state : σ)
    (holds : ∀ seen, rely state seen → inv seen → guar seen (step seen).2 ∧
      ∀ last, rely (step seen).2 last → inv last → post (step seen).1 last) :
    (Prog.act step .ret : Prog σ ε β).Wp inv rely guar (sure post) state := by
  intro seen moved kept
  obtain ⟨keeps, ends⟩ := holds seen moved kept
  exact ⟨keeps, sure_pure _ _ _ ends⟩

theorem wp_map_error (wrap : ε → ε') (prog : Prog σ ε α) (post : Except ε' α → σ → Prop) (state : σ)
    (holds : prog.Wp inv rely guar (fun outcome seen => post (outcome.mapError wrap) seen) state) :
    (prog.mapError wrap).Wp inv rely guar post state := by
  induction prog generalizing state with
  | ret value => exact holds
  | fail error => exact holds
  | act step rest ih =>
      intro seen moved kept
      obtain ⟨keeps, later⟩ := holds seen moved kept
      exact ⟨keeps, ih _ _ later⟩

theorem wp_rename_error (wrap : ε → ε') (prog : Prog σ ε α) (post : α → σ → Prop) (state : σ)
    (holds : prog.Wp inv rely guar (okay post) state) : (prog.mapError wrap).Wp inv rely guar (okay post) state := by
  apply wp_map_error
  refine wp_mono prog _ _ state (fun outcome seen satisfied value same => ?_) holds
  cases outcome with
  | ok found =>
      have named : found = value := Except.ok.inj same
      exact named ▸ satisfied found rfl
  | error reason => cases same

theorem sure_rename_error (wrap : ε → ε') (prog : Prog σ ε α) (post : α → σ → Prop) (state : σ)
    (holds : prog.Wp inv rely guar (sure post) state) : (prog.mapError wrap).Wp inv rely guar (sure post) state := by
  apply wp_map_error
  refine wp_mono prog _ _ state (fun outcome seen satisfied => ?_) holds
  obtain ⟨value, rfl, later⟩ := satisfied
  exact ⟨value, rfl, later⟩

theorem sure_mono (prog : Prog σ ε α) (strong weak : α → σ → Prop) (state : σ)
    (imp : ∀ value seen, strong value seen → weak value seen) (holds : prog.Wp inv rely guar (sure strong) state) :
    prog.Wp inv rely guar (sure weak) state :=
  wp_mono prog _ _ state (fun _ seen ⟨value, same, later⟩ => ⟨value, same, imp value seen later⟩) holds

-- An undisturbed run is one of those that a triple speaks of.
theorem wp_exec (refl : ∀ a, rely a a) (always : ∀ a, inv a) (prog : Prog σ ε α) (post : Except ε α → σ → Prop) (state : σ)
    (holds : prog.Wp inv rely guar post state) : post (prog.exec state).1 (prog.exec state).2 := by
  induction prog generalizing state with
  | ret value => exact holds state (refl state) (always state)
  | fail error => exact holds state (refl state) (always state)
  | act step rest ih => exact ih _ _ (holds state (refl state) (always state)).2

theorem wp_exec_guar (refl : ∀ a, rely a a) (always : ∀ a, inv a) (same : ∀ a, guar a a)
    (trans : ∀ a b c, guar a b → guar b c → guar a c) (prog : Prog σ ε α) (post : Except ε α → σ → Prop) (state : σ)
    (holds : prog.Wp inv rely guar post state) : guar state (prog.exec state).2 := by
  induction prog generalizing state with
  | ret value => exact same state
  | fail error => exact same state
  | act step rest ih =>
      obtain ⟨keeps, later⟩ := holds state (refl state) (always state)
      exact trans _ _ _ keeps (ih _ _ later)

end Wp

theorem exec_bind (prog : Prog σ ε α) (next : α → Prog σ ε β) (state : σ) :
    (prog >>= next).exec state =
      match prog.exec state with
      | (.ok value, after) => (next value).exec after
      | (.error error, after) => (.error error, after) := by
  induction prog generalizing state with
  | ret value => rfl
  | fail error => rfl
  | act step rest ih => exact ih _ _

theorem exec_bind_ok (prog : Prog σ ε α) (next : α → Prog σ ε β) (state after : σ) (value : β) :
    (prog >>= next).exec state = (.ok value, after) ↔
      ∃ mid seen, prog.exec state = (.ok mid, seen) ∧ (next mid).exec seen = (.ok value, after) := by
  rw [exec_bind]
  cases outcome : prog.exec state with
  | mk result seen =>
      cases result with
      | ok mid =>
          constructor
          · intro run
            exact ⟨mid, seen, rfl, run⟩
          · intro ⟨other, final, same, run⟩
            cases same
            exact run
      | error reason => exact iff_of_false nofun fun ⟨_, _, impossible, _⟩ => nomatch impossible

theorem exec_of_except (result : Except ε α) (state : σ) : (ofExcept result).exec state = (result, state) := by
  cases result <;> rfl

theorem exec_read (look : σ → Except ε α) (state : σ) : (read look).exec state = (look state, state) :=
  exec_of_except (look state) state

theorem exec_map (f : α → β) (prog : Prog σ ε α) (state : σ) :
    (f <$> prog).exec state = ((prog.exec state).1.map f, (prog.exec state).2) := by
  induction prog generalizing state with
  | ret value => rfl
  | fail error => rfl
  | act step rest ih => exact ih _ _

theorem exec_map_error (wrap : ε → ε') (prog : Prog σ ε α) (state : σ) :
    (prog.mapError wrap).exec state = ((prog.exec state).1.mapError wrap, (prog.exec state).2) := by
  induction prog generalizing state with
  | ret value => rfl
  | fail error => rfl
  | act step rest ih => exact ih _ _

theorem exec_attempt (prog : Prog σ ε α) (state : σ) :
    (prog.attempt : Prog σ ε' (Except ε α)).exec state = (.ok (prog.exec state).1, (prog.exec state).2) := by
  induction prog generalizing state with
  | ret value => rfl
  | fail error => rfl
  | act step rest ih => exact ih _ _

theorem exec_transact_ok (run : σ → Except ε (α × σ)) (state after : σ) (value : α) :
    (transact run).exec state = (.ok value, after) ↔ run state = .ok (value, after) := by
  rw [transact, exec, exec_of_except, attemptStep]
  cases outcome : run state with
  | error reason => exact iff_of_false nofun nofun
  | ok pair => rw [Prod.mk.injEq, Except.ok.injEq, Except.ok.injEq, Prod.ext_iff]

end Prog
