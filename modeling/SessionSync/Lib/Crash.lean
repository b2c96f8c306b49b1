import SessionSync.Lib.Prog

set_option autoImplicit false

-- A state whose next accesses may be refused from outside: one entry for each
-- access to come, and none of the accesses after the last entry is refused.
structure Faulty (σ : Type) where
  state : σ
  faults : List Bool

namespace Prog

variable {σ ε α β : Type}

-- One round for each item, until one of them fails.
def forEach (items : List α) (body : α → Prog σ ε Unit) : Prog σ ε Unit :=
  match items with
  | [] => .ret ()
  | item :: rest => body item >>= fun _ => forEach rest body

-- A program on a part of the state.
def zoom {τ : Type} (get : τ → σ) (set : σ → τ → τ) : Prog σ ε α → Prog τ ε α
  | .ret value => .ret value
  | .fail error => .fail error
  | .act step rest =>
      .act (fun whole => ((step (get whole)).1, set (step (get whole)).2 whole)) fun answer => (rest answer).zoom get set

section Safe

variable (crash : σ → Prop)

-- Wherever the program is cut off the state satisfies `crash`, and the outcome
-- satisfies `post`.
def Safe : Prog σ ε α → (Except ε α → σ → Prop) → σ → Prop
  | .ret value, post, state => crash state ∧ post (.ok value) state
  | .fail error, post, state => crash state ∧ post (.error error) state
  | .act step rest, post, state => crash state ∧ (rest (step state).1).Safe post (step state).2

variable {crash}

theorem safe_iff (prog : Prog σ ε α) (post : Except ε α → σ → Prop) (state : σ) :
    prog.Safe crash post state ↔ (∀ seen, prog.Cut state seen → crash seen) ∧ post (prog.exec state).1 (prog.exec state).2 := by
  induction prog generalizing state with
  | ret value => simp only [Safe, Cut, exec, forall_eq]
  | fail error => simp only [Safe, Cut, exec, forall_eq]
  | act step rest ih =>
      simp only [Safe, Cut, exec, ih, forall_eq_or_imp, and_assoc]

-- A run that is not cut off ends in one of the states it passes.
theorem cut_exec (prog : Prog σ ε α) (state : σ) : prog.Cut state (prog.exec state).2 := by
  induction prog generalizing state with
  | ret value => rfl
  | fail error => rfl
  | act step rest ih => exact .inr (ih _ _)

theorem cut_begins (prog : Prog σ ε α) (state : σ) : prog.Cut state state := by
  cases prog with
  | ret value => rfl
  | fail error => rfl
  | act step rest => exact .inl rfl

-- What is cut off inside its first part, or after it.
theorem cut_first (prog : Prog σ ε α) (next : α → Prog σ ε β) (state seen : σ) (cut : prog.Cut state seen) :
    (prog >>= next).Cut state seen := by
  induction prog generalizing state with
  | ret value =>
      have same : seen = state := cut
      rw [same]
      exact cut_begins _ state
  | fail error => exact cut
  | act step rest ih => exact cut.imp_right (ih _ _)

theorem cut_map (wrap : α → β) (prog : Prog σ ε α) (state seen : σ) (cut : prog.Cut state seen) : (wrap <$> prog).Cut state seen :=
  cut_first prog _ state seen cut

theorem cut_later (prog : Prog σ ε α) (next : α → Prog σ ε β) (state mid seen : σ) (value : α)
    (run : prog.exec state = (.ok value, mid)) (cut : (next value).Cut mid seen) : (prog >>= next).Cut state seen := by
  induction prog generalizing state with
  | ret other =>
      cases run
      exact cut
  | fail error => cases run
  | act step rest ih => exact .inr (ih _ _ run)

theorem cut_of_except (result : Except ε α) (state seen : σ) (cut : (ofExcept result).Cut state seen) : seen = state := by
  cases result with
  | ok value => exact cut
  | error error => exact cut

theorem cut_bind (prog : Prog σ ε α) (next : α → Prog σ ε β) (state seen : σ) (cut : (prog >>= next).Cut state seen) :
    prog.Cut state seen ∨ ∃ value mid, prog.exec state = (.ok value, mid) ∧ (next value).Cut mid seen := by
  induction prog generalizing state with
  | ret value => exact .inr ⟨value, state, rfl, cut⟩
  | fail error => exact .inl cut
  | act step rest ih =>
      rcases cut with here | cut
      · exact .inl (.inl here)
      · exact (ih _ _ cut).imp_left .inr

-- An attempt passes through the states of what it attempts.
theorem cut_attempt {ε' : Type} (prog : Prog σ ε α) (state seen : σ) (cut : prog.Cut state seen) :
    (prog.attempt : Prog σ ε' (Except ε α)).Cut state seen := by
  induction prog generalizing state with
  | ret value => exact cut
  | fail error => exact cut
  | act step rest ih => exact cut.imp_right (ih _ _)

theorem safe_here (prog : Prog σ ε α) (post : Except ε α → σ → Prop) (state : σ) (safe : prog.Safe crash post state) :
    crash state := by
  cases prog with
  | ret value => exact safe.1
  | fail error => exact safe.1
  | act step rest => exact safe.1

theorem safe_mono (prog : Prog σ ε α) (strong weak : Except ε α → σ → Prop) (state : σ)
    (imp : ∀ outcome seen, crash seen → strong outcome seen → weak outcome seen) (safe : prog.Safe crash strong state) :
    prog.Safe crash weak state := by
  induction prog generalizing state with
  | ret value => exact ⟨safe.1, imp _ _ safe.1 safe.2⟩
  | fail error => exact ⟨safe.1, imp _ _ safe.1 safe.2⟩
  | act step rest ih => exact ⟨safe.1, ih _ _ safe.2⟩

-- A program on a part of the state is safe where it is safe on that part.
theorem safe_zoom {τ : Type} {stops : τ → Prop} (get : τ → σ) (set : σ → τ → τ) (back : ∀ part whole, get (set part whole) = part)
    (twice : ∀ new old whole, set new (set old whole) = set new whole) (prog : Prog σ ε α)
    (post : Except ε α → τ → Prop) (part : σ) (whole : τ)
    (safe : prog.Safe (fun part => stops (set part whole)) (fun outcome part => post outcome (set part whole)) part) :
    (prog.zoom get set).Safe stops post (set part whole) := by
  induction prog generalizing part with
  | ret value => exact safe
  | fail error => exact safe
  | act step rest ih =>
      refine ⟨safe.1, ?_⟩
      dsimp only
      rw [back, twice]
      exact ih _ _ safe.2

-- The program does not fail.
def total {ε : Type} (post : α → σ → Prop) : Except ε α → σ → Prop
  | .ok value, state => post value state
  | .error _, _ => False

-- What a sequence is to do once its first part has ended.
def andThen (crash : σ → Prop) (next : α → Prog σ ε β) (post : Except ε β → σ → Prop) : Except ε α → σ → Prop
  | .ok value, state => (next value).Safe crash post state
  | .error error, state => post (.error error) state

theorem safe_bind (prog : Prog σ ε α) (next : α → Prog σ ε β) (post : Except ε β → σ → Prop) (state : σ)
    (first : prog.Safe crash (andThen crash next post) state) : (prog >>= next).Safe crash post state := by
  induction prog generalizing state with
  | ret value => exact first.2
  | fail error => exact first
  | act step rest ih => exact ⟨first.1, ih _ _ first.2⟩

theorem safe_pure (value : α) (post : Except ε α → σ → Prop) (state : σ) (here : crash state) (ends : post (.ok value) state) :
    (pure value : Prog σ ε α).Safe crash post state := ⟨here, ends⟩

theorem safe_of_except (result : Except ε α) (post : Except ε α → σ → Prop) (state : σ) (here : crash state)
    (ends : post result state) :
    (ofExcept result : Prog σ ε α).Safe crash post state := by
  cases result with
  | error error => exact ⟨here, ends⟩
  | ok value => exact ⟨here, ends⟩

theorem safe_transact (run : σ → Except ε (α × σ)) (post : Except ε α → σ → Prop) (state : σ) (here : crash state)
    (commits : ∀ value after, run state = .ok (value, after) → crash after ∧ post (.ok value) after)
    (refuses : ∀ error, run state = .error error → post (.error error) state) : (transact run).Safe crash post state := by
  refine ⟨here, ?_⟩
  unfold attemptStep
  cases outcome : run state with
  | error error => exact safe_of_except _ _ _ here (refuses error outcome)
  | ok pair =>
      obtain ⟨kept, ends⟩ := commits pair.1 pair.2 outcome
      exact safe_of_except _ _ _ kept ends

theorem safe_query (look : σ → α) (post : Except ε α → σ → Prop) (state : σ) (here : crash state)
    (ends : post (.ok (look state)) state) : (query look : Prog σ ε α).Safe crash post state := ⟨here, here, ends⟩

theorem safe_attempt {ε' : Type} (prog : Prog σ ε α) (post : Except ε' (Except ε α) → σ → Prop) (state : σ)
    (safe : prog.Safe crash (fun outcome seen => post (.ok outcome) seen) state) :
    (prog.attempt : Prog σ ε' (Except ε α)).Safe crash post state := by
  induction prog generalizing state with
  | ret value => exact safe
  | fail error => exact safe
  | act step rest ih => exact ⟨safe.1, ih _ _ safe.2⟩

theorem safe_map_error {ε' : Type} (wrap : ε → ε') (prog : Prog σ ε α) (post : Except ε' α → σ → Prop) (state : σ)
    (safe : prog.Safe crash (fun outcome seen => post (outcome.mapError wrap) seen) state) :
    (prog.mapError wrap).Safe crash post state := by
  induction prog generalizing state with
  | ret value => exact safe
  | fail error => exact safe
  | act step rest ih => exact ⟨safe.1, ih _ _ safe.2⟩

-- What a round leaves for the items that are still to come.
def round (inv : List α → σ → Prop) (rest : List α) (fails : ε → σ → Prop) : Except ε Unit → σ → Prop
  | .ok _, state => inv rest state
  | .error error, state => fails error state

theorem safe_for_each (body : α → Prog σ ε Unit) (inv : List α → σ → Prop) (fails : ε → σ → Prop)
    (step : ∀ item rest state, inv (item :: rest) state → (body item).Safe crash (round inv rest fails) state)
    (items : List α) (state : σ) (starts : inv items state) (ends : ∀ state, inv [] state → crash state) :
    (forEach items body).Safe crash (round inv [] fails) state := by
  induction items generalizing state with
  | nil => exact ⟨ends state starts, starts⟩
  | cons item rest ih =>
      apply safe_bind
      refine safe_mono _ _ _ _ (fun outcome seen _ left => ?_) (step item rest state starts)
      cases outcome with
      | error error => exact left
      | ok _ => exact ih seen left

end Safe

def settle (run : σ → Except ε (α × σ)) (state : σ) (rest : List Bool) : Except ε α × Faulty σ :=
  match run state with
  | .ok (value, after) => (.ok value, ⟨after, rest⟩)
  | .error error => (.error error, ⟨state, rest⟩)

-- One access that is refused, or happens in one step.
def accessStep (refused : ε) (run : σ → Except ε (α × σ)) : Faulty σ → Except ε α × Faulty σ
  | ⟨state, []⟩ => settle run state []
  | ⟨state, false :: rest⟩ => settle run state rest
  | ⟨state, true :: rest⟩ => (.error refused, ⟨state, rest⟩)

def access (refused : ε) (run : σ → Except ε (α × σ)) : Prog (Faulty σ) ε α := .act (accessStep refused run) ofExcept

-- The device once more, with as many refusals ahead as the surroundings like.
def Disturbed (device after : Faulty σ) : Prop := after.state = device.state

-- A program that was started and cut off, again and again.
def Restarted (prog : Prog (Faulty σ) ε α) : Faulty σ → Faulty σ → Prop :=
  Relation.ReflTransGen fun device after => ∃ begun, Disturbed device begun ∧ prog.Cut begun after

section Access

variable {crash : σ → Prop}

theorem safe_access (refused : ε) (run : σ → Except ε (α × σ)) (post : Except ε α → Faulty σ → Prop) (device : Faulty σ)
    (here : crash device.state)
    (done : ∀ value after rest, run device.state = .ok (value, after) → (device.faults = [] → rest = []) →
      crash after ∧ post (.ok value) ⟨after, rest⟩)
    (fails : ∀ error rest, (device.faults = [] → rest = [] ∧ run device.state = .error error) →
      post (.error error) ⟨device.state, rest⟩) :
    (access refused run).Safe (fun device => crash device.state) post device := by
  obtain ⟨state, faults⟩ := device
  refine ⟨here, ?_⟩
  have runs : ∀ rest, (faults = [] → rest = []) → (ofExcept (settle run state rest).1 : Prog (Faulty σ) ε α).Safe
      (fun device => crash device.state) post (settle run state rest).2 := by
    intro rest quiet
    unfold settle
    cases outcome : run state with
    | error error => exact safe_of_except _ _ _ here (fails error rest fun none => ⟨quiet none, outcome⟩)
    | ok pair =>
        obtain ⟨kept, ends⟩ := done pair.1 pair.2 rest outcome quiet
        exact safe_of_except _ _ _ kept ends
  cases faults with
  | nil => exact runs [] fun _ => rfl
  | cons fault rest =>
      cases fault with
      | true => exact safe_of_except _ _ _ here (fails refused rest nofun)
      | false => exact runs rest nofun

theorem restarted_keep (prog : Prog (Faulty σ) ε α) (keeps : ∀ device : Faulty σ, crash device.state →
      prog.Safe (fun device => crash device.state) (fun _ _ => True) device) (device after : Faulty σ) (here : crash device.state)
    (run : Restarted prog device after) : crash after.state := by
  induction run with
  | refl => exact here
  | tail _ last ih =>
      obtain ⟨begun, same, cut⟩ := last
      exact ((safe_iff _ _ _).mp (keeps begun (same ▸ ih))).1 _ cut

end Access

end Prog
