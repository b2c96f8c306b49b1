import SessionSync.Lib.Prog

set_option autoImplicit false

namespace Schedule

variable {σ ε α ι : Type}

-- A call in progress: what is left of it, and the states around each action it took.
structure Task (σ ε α ι : Type) : Type 1 where
  call : ι
  taken : List (σ × σ)
  rest : Prog σ ε α

structure World (σ ε α ι : Type) : Type 1 where
  state : σ
  running : List (Task σ ε α ι)

inductive Event (σ ε α ι : Type) : Type 1 where
  | began (call : ι)
  | acted (call : ι) (before : σ) (rest : Prog σ ε α) (after : σ)
  | returned (call : ι) (taken : List (σ × σ)) (value : α)
  | failed (call : ι) (taken : List (σ × σ))

-- Any call in progress may take the next action, and others may begin at any time.
-- A call fails by its own error, or by a fault that keeps its next action from happening.
inductive Step (prog : ι → Prog σ ε α) : World σ ε α ι → Event σ ε α ι → World σ ε α ι → Prop where
  | begins (state : σ) (running : List (Task σ ε α ι)) (call : ι) :
      Step prog ⟨state, running⟩ (.began call) ⟨state, ⟨call, [], prog call⟩ :: running⟩
  | acts (state : σ) (before after : List (Task σ ε α ι)) (call : ι) (taken : List (σ × σ)) {β : Type} (step : σ → β × σ)
      (next : β → Prog σ ε α) :
      Step prog ⟨state, before ++ ⟨call, taken, .act step next⟩ :: after⟩
        (.acted call state (next (step state).1) (step state).2)
        ⟨(step state).2, before ++ ⟨call, taken ++ [(state, (step state).2)], next (step state).1⟩ :: after⟩
  | returns (state : σ) (before after : List (Task σ ε α ι)) (call : ι) (taken : List (σ × σ)) (value : α) :
      Step prog ⟨state, before ++ ⟨call, taken, .ret value⟩ :: after⟩ (.returned call taken value) ⟨state, before ++ after⟩
  | fails (state : σ) (before after : List (Task σ ε α ι)) (call : ι) (taken : List (σ × σ)) (error : ε) :
      Step prog ⟨state, before ++ ⟨call, taken, .fail error⟩ :: after⟩ (.failed call taken) ⟨state, before ++ after⟩
  | faults (state : σ) (before after : List (Task σ ε α ι)) (call : ι) (taken : List (σ × σ)) {β : Type} (step : σ → β × σ)
      (next : β → Prog σ ε α) :
      Step prog ⟨state, before ++ ⟨call, taken, .act step next⟩ :: after⟩ (.failed call taken) ⟨state, before ++ after⟩

inductive Run (prog : ι → Prog σ ε α) : World σ ε α ι → List (Event σ ε α ι) → World σ ε α ι → Prop where
  | nil (world : World σ ε α ι) : Run prog world [] world
  | cons (world mid last : World σ ε α ι) (event : Event σ ε α ι) (events : List (Event σ ε α ι)) (first : Step prog world event mid)
      (rest : Run prog mid events last) : Run prog world (event :: events) last

section Rules

variable {prog : ι → Prog σ ε α}

theorem run_append (one other : List (Event σ ε α ι)) (world last : World σ ε α ι) :
    Run prog world (one ++ other) last ↔ ∃ mid, Run prog world one mid ∧ Run prog mid other last := by
  induction one generalizing world with
  | nil =>
      constructor
      · intro run
        exact ⟨world, .nil world, run⟩
      · rintro ⟨mid, begins, ends⟩
        cases begins
        exact ends
  | cons event events ih =>
      constructor
      · intro run
        cases run with
        | cons _ mid _ _ _ first rest =>
            obtain ⟨between, begins, ends⟩ := (ih mid).mp rest
            exact ⟨between, .cons world mid between event events first begins, ends⟩
      · rintro ⟨between, begins, ends⟩
        cases begins with
        | cons _ mid _ _ _ first rest => exact .cons world mid last event _ first ((ih mid).mpr ⟨between, rest, ends⟩)

-- What the program has left once it has taken these actions.
def After : Prog σ ε α → List (σ × σ) → Prog σ ε α → Prop
  | prog, [], rest => rest = prog
  | .act step next, (before, after) :: taken, rest => after = (step before).2 ∧ After (next (step before).1) taken rest
  | _, _ :: _, _ => False

theorem after_nil (whole rest : Prog σ ε α) : After whole [] rest ↔ rest = whole := by rw [After]

theorem after_act {β : Type} (whole : Prog σ ε α) (taken : List (σ × σ)) (step : σ → β × σ) (next : β → Prog σ ε α) (state : σ)
    (left : After whole taken (.act step next)) : After whole (taken ++ [(state, (step state).2)]) (next (step state).1) := by
  induction taken generalizing whole with
  | nil =>
      rw [after_nil] at left
      subst left
      exact ⟨rfl, (after_nil _ _).mpr rfl⟩
  | cons pair taken ih =>
      cases whole with
      | ret value => exact left.elim
      | fail error => exact left.elim
      | act first rest => exact ⟨left.1, ih _ left.2⟩

-- A check that fails is the end of the program.
theorem after_check {β γ : Type} (result : Except ε β) (next : β → Prog σ ε γ) (wrap : γ → α) (taken : List (σ × σ))
    (rest : Prog σ ε α) (left : After (wrap <$> (Prog.ofExcept result >>= next)) taken rest) :
    taken = [] ∨ ∃ value, result = .ok value ∧ After (wrap <$> next value) taken rest := by
  cases result with
  | ok value => exact .inr ⟨value, rfl, left⟩
  | error error =>
      cases taken with
      | nil => exact .inl rfl
      | cons _ _ => exact left.elim

theorem after_done {β : Type} (result : Except ε β) (wrap : β → α) (taken : List (σ × σ)) (rest : Prog σ ε α)
    (left : After (wrap <$> Prog.ofExcept result) taken rest) : taken = [] := by
  cases taken with
  | nil => rfl
  | cons _ _ => cases result <;> exact left.elim

-- A transaction is one action, and the end of the program.
theorem after_transact {β : Type} (run : σ → Except ε (β × σ)) (wrap : β → α) (taken : List (σ × σ)) (rest : Prog σ ε α)
    (left : After (wrap <$> Prog.transact run) taken rest) :
    taken = [] ∨ ∃ before, (∃ value after, run before = .ok (value, after) ∧ taken = [(before, after)] ∧ rest = .ret (wrap value)) ∨
      ∃ error, run before = .error error ∧ taken = [(before, before)] ∧ rest = .fail error := by
  cases taken with
  | nil => exact .inl rfl
  | cons pair more =>
      obtain ⟨before, after⟩ := pair
      obtain ⟨ends, left⟩ := left
      refine .inr ⟨before, ?_⟩
      unfold Prog.attemptStep at ends left
      cases outcome : run before with
      | error error =>
          rw [outcome] at ends left
          cases more with
          | nil => exact .inr ⟨error, rfl, by rw [ends], (after_nil _ _).mp left⟩
          | cons _ _ => exact left.elim
      | ok pair =>
          rw [outcome] at ends left
          cases more with
          | nil => exact .inl ⟨pair.1, pair.2, rfl, by rw [ends], (after_nil _ _).mp left⟩
          | cons _ _ => exact left.elim

-- What an event says of its call.
def Event.Fits (prog : ι → Prog σ ε α) : Event σ ε α ι → Prop
  | .began _ => True
  | .acted call before rest after => ∃ taken, After (prog call) (taken ++ [(before, after)]) rest
  | .returned call taken value => After (prog call) taken (.ret value)
  | .failed call taken => ∃ rest, After (prog call) taken rest ∧ ∀ value, rest ≠ .ret value

def Fitting (prog : ι → Prog σ ε α) (tasks : List (Task σ ε α ι)) : Prop :=
  ∀ task ∈ tasks, After (prog task.call) task.taken task.rest

theorem fitting_drop (left right : List (Task σ ε α ι)) (gone : Task σ ε α ι) (tasks : Fitting prog (left ++ gone :: right)) :
    After (prog gone.call) gone.taken gone.rest ∧ Fitting prog (left ++ right) := by
  refine ⟨tasks gone (List.mem_append_right _ List.mem_cons_self), fun task member => tasks task ?_⟩
  exact (List.Sublist.append_left (List.sublist_cons_self gone right) left).subset member

theorem step_fits (world after : World σ ε α ι) (event : Event σ ε α ι) (step : Step prog world event after)
    (tasks : Fitting prog world.running) : event.Fits prog ∧ Fitting prog after.running := by
  cases step with
  | begins state running call => exact ⟨trivial, List.forall_mem_cons.mpr ⟨(after_nil _ _).mpr rfl, tasks⟩⟩
  | acts state before after call taken step next =>
      obtain ⟨own, others⟩ := fitting_drop _ _ _ tasks
      have moved := after_act _ taken step next state own
      refine ⟨⟨taken, moved⟩, fun task member => ?_⟩
      rcases List.mem_append.mp member with earlier | later
      · exact others task (List.mem_append_left _ earlier)
      · rcases List.mem_cons.mp later with same | behind
        · rw [same]
          exact moved
        · exact others task (List.mem_append_right _ behind)
  | returns state before after call taken value => exact fitting_drop _ _ _ tasks
  | fails state before after call taken error =>
      obtain ⟨own, others⟩ := fitting_drop _ _ _ tasks
      exact ⟨⟨_, own, fun _ => nofun⟩, others⟩
  | faults state before after call taken step next =>
      obtain ⟨own, others⟩ := fitting_drop _ _ _ tasks
      exact ⟨⟨_, own, fun _ => nofun⟩, others⟩

theorem run_fits (world last : World σ ε α ι) (events : List (Event σ ε α ι)) (run : Run prog world events last) :
    Fitting prog world.running → ∀ event ∈ events, event.Fits prog := by
  induction run with
  | nil world => exact fun _ => List.forall_mem_nil _
  | cons world mid last event events first rest ih =>
      intro tasks
      obtain ⟨own, later⟩ := step_fits world mid event first tasks
      exact List.forall_mem_cons.mpr ⟨own, ih later⟩

variable (prog) in
-- A call that begins and takes its first action at once.
theorem run_begins (state : σ) (running : List (Task σ ε α ι)) (call : ι) {β : Type} (step : σ → β × σ) (next : β → Prog σ ε α)
    (shape : prog call = .act step next) :
    Run prog ⟨state, running⟩ [.began call, .acted call state (next (step state).1) (step state).2]
      ⟨(step state).2, ⟨call, [(state, (step state).2)], next (step state).1⟩ :: running⟩ := by
  refine .cons _ ⟨state, ⟨call, [], prog call⟩ :: running⟩ _ _ _ (.begins state running call) ?_
  rw [shape]
  exact .cons _ _ _ _ _ (.acts state [] running call [] step next) (.nil _)

variable (prog) in
theorem run_acts (state after : σ) (earlier later : List (Task σ ε α ι)) (call : ι) (taken : List (σ × σ)) (rest : Prog σ ε α)
    {β : Type} (step : σ → β × σ) (next : β → Prog σ ε α) (value : β) (shape : rest = .act step next)
    (answer : step state = (value, after)) :
    Run prog ⟨state, earlier ++ ⟨call, taken, rest⟩ :: later⟩ [.acted call state (next value) after]
      ⟨after, earlier ++ ⟨call, taken ++ [(state, after)], next value⟩ :: later⟩ := by
  have moves := @Step.acts σ ε α ι prog state earlier later call taken β step next
  rw [answer] at moves
  rw [shape]
  exact .cons _ _ _ _ _ moves (.nil _)

-- The states an event stands between.
def Event.Between (state after : σ) : Event σ ε α ι → Prop
  | .acted _ before _ ends => state = before ∧ after = ends
  | _ => after = state

theorem step_between (world after : World σ ε α ι) (event : Event σ ε α ι) (step : Step prog world event after) :
    event.Between world.state after.state := by
  cases step with
  | begins | returns | fails | faults => rfl
  | acts => exact ⟨rfl, rfl⟩

-- A relation that every action of the run keeps to holds from its first state to its last.
theorem run_relates (relates : σ → σ → Prop) (refl : ∀ state, relates state state)
    (trans : ∀ one two three, relates one two → relates two three → relates one three) (world last : World σ ε α ι)
    (events : List (Event σ ε α ι)) (run : Run prog world events last)
    (each : ∀ call before rest after, .acted call before rest after ∈ events → relates before after) :
    relates world.state last.state := by
  induction run with
  | nil world => exact refl world.state
  | cons world mid last event events first rest ih =>
      have later := ih fun call before rest after member => each call before rest after (List.mem_cons_of_mem _ member)
      have between := step_between world mid event first
      cases event with
      | acted call before left after =>
          obtain ⟨begins, ends⟩ := between
          rw [begins]
          exact trans _ _ _ (each call before left after List.mem_cons_self) (ends ▸ later)
      | began | returned | failed =>
          have same : mid.state = world.state := between
          exact same ▸ later

-- The state before an action of the run, and the state after it.
theorem run_acted (world last : World σ ε α ι) (first rest : List (Event σ ε α ι)) (call : ι) (before after : σ) (left : Prog σ ε α)
    (run : Run prog world (first ++ .acted call before left after :: rest) last) :
    ∃ one other, Run prog world first one ∧ one.state = before ∧ other.state = after ∧ Run prog other rest last := by
  obtain ⟨one, begins, ends⟩ := (run_append _ _ _ _).mp run
  cases ends with
  | cons _ mid _ _ _ step later =>
      obtain ⟨starts, stops⟩ := step_between one mid _ step
      exact ⟨one, mid, begins, starts, stops, later⟩

end Rules

end Schedule
