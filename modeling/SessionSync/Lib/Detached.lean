import SessionSync.Lib.Actions

set_option autoImplicit false

namespace Schedule

variable {σ ε α ι : Type}

-- An action in a thread of its own, whose call was given up while it was under way. It may
-- still happen, at any later moment, and nobody waits for its answer.
structure Detached (σ ι : Type) where
  call : ι
  taken : List (σ × σ)
  act : σ → σ

structure Threads (σ ε α ι : Type) : Type 1 where
  world : World σ ε α ι
  detached : List (Detached σ ι)

inductive Happening (σ ε α ι : Type) : Type 1 where
  | ran (event : Event σ ε α ι)
  | gaveUp (call : ι) (taken : List (σ × σ))
  | landed (call : ι) (taken : List (σ × σ)) (before after : σ)

inductive ThreadStep (prog : ι → Prog σ ε α) : Threads σ ε α ι → Happening σ ε α ι → Threads σ ε α ι → Prop where
  | runs (world after : World σ ε α ι) (event : Event σ ε α ι) (detached : List (Detached σ ι)) (step : Step prog world event after) :
      ThreadStep prog ⟨world, detached⟩ (.ran event) ⟨after, detached⟩
  | givesUp (state : σ) (before after : List (Task σ ε α ι)) (call : ι) (taken : List (σ × σ)) {β : Type} (step : σ → β × σ)
      (next : β → Prog σ ε α) (detached : List (Detached σ ι)) :
      ThreadStep prog ⟨⟨state, before ++ ⟨call, taken, .act step next⟩ :: after⟩, detached⟩ (.gaveUp call taken)
        ⟨⟨state, before ++ after⟩, ⟨call, taken, fun state => (step state).2⟩ :: detached⟩
  | lands (state : σ) (running : List (Task σ ε α ι)) (before after : List (Detached σ ι)) (one : Detached σ ι) :
      ThreadStep prog ⟨⟨state, running⟩, before ++ one :: after⟩ (.landed one.call one.taken state (one.act state))
        ⟨⟨one.act state, running⟩, before ++ after⟩

inductive ThreadRun (prog : ι → Prog σ ε α) : Threads σ ε α ι → List (Happening σ ε α ι) → Threads σ ε α ι → Prop where
  | nil (threads : Threads σ ε α ι) : ThreadRun prog threads [] threads
  | cons (threads mid last : Threads σ ε α ι) (event : Happening σ ε α ι) (events : List (Happening σ ε α ι))
      (first : ThreadStep prog threads event mid) (rest : ThreadRun prog mid events last) : ThreadRun prog threads
        (event :: events) last

-- An action of the call that took place, waited for or not.
inductive Happening.Changes : Happening σ ε α ι → ι → σ → σ → Prop where
  | acted (call : ι) (before : σ) (rest : Prog σ ε α) (after : σ) : Changes (.ran (.acted call before rest after)) call before after
  | landed (call : ι) (taken : List (σ × σ)) (before after : σ) : Changes (.landed call taken before after) call before after

section Rules

variable {prog : ι → Prog σ ε α}

theorem thread_append (one other : List (Happening σ ε α ι)) (threads last : Threads σ ε α ι) :
    ThreadRun prog threads (one ++ other) last ↔ ∃ mid, ThreadRun prog threads one mid ∧ ThreadRun prog mid other last := by
  induction one generalizing threads with
  | nil =>
      constructor
      · intro run
        exact ⟨threads, .nil threads, run⟩
      · rintro ⟨mid, begins, ends⟩
        cases begins
        exact ends
  | cons event events ih =>
      constructor
      · intro run
        cases run with
        | cons _ mid _ _ _ first rest =>
            obtain ⟨between, begins, ends⟩ := (ih mid).mp rest
            exact ⟨between, .cons threads mid between event events first begins, ends⟩
      · rintro ⟨between, begins, ends⟩
        cases begins with
        | cons _ mid _ _ _ first rest => exact .cons threads mid last event _ first ((ih mid).mpr ⟨between, rest, ends⟩)

-- A run in which no call is given up.
theorem thread_runs (world last : World σ ε α ι) (events : List (Event σ ε α ι)) (detached : List (Detached σ ι))
    (run : Run prog world events last) : ThreadRun prog ⟨world, detached⟩ (events.map .ran) ⟨last, detached⟩ := by
  induction run with
  | nil world => exact .nil _
  | cons world mid last event events first rest ih => exact .cons _ _ _ _ _ (.runs world mid event detached first) ih

-- What an event says of its call.
def Happening.Fits (prog : ι → Prog σ ε α) : Happening σ ε α ι → Prop
  | .ran event => event.Fits prog
  | .gaveUp call taken => ∃ rest, After (prog call) taken rest ∧ ∀ value, rest ≠ .ret value
  | .landed call taken before after => ∃ rest, After (prog call) (taken ++ [(before, after)]) rest

-- A detached action is the next one of its call, whenever it happens.
def Pending (prog : ι → Prog σ ε α) (detached : List (Detached σ ι)) : Prop :=
  ∀ one ∈ detached, ∀ state, ∃ rest, After (prog one.call) (one.taken ++ [(state, one.act state)]) rest

theorem thread_fits (threads after : Threads σ ε α ι) (event : Happening σ ε α ι) (step : ThreadStep prog threads event after)
    (tasks : Fitting prog threads.world.running) (pending : Pending prog threads.detached) :
    event.Fits prog ∧ Fitting prog after.world.running ∧ Pending prog after.detached := by
  cases step with
  | runs world after event detached step =>
      obtain ⟨own, later⟩ := step_fits world after event step tasks
      exact ⟨own, later, pending⟩
  | givesUp state before after call taken step next detached =>
      obtain ⟨own, others⟩ := fitting_drop _ _ _ tasks
      exact ⟨⟨_, own, fun _ => nofun⟩, others,
        List.forall_mem_cons.mpr ⟨fun state => ⟨_, after_act _ taken step next state own⟩, pending⟩⟩
  | lands state running before after one =>
      have own := pending one (List.mem_append_right _ List.mem_cons_self) state
      exact ⟨own, tasks, fun other member =>
        pending other ((List.Sublist.append_left (List.sublist_cons_self one after) before).subset member)⟩

theorem thread_run_fits (threads last : Threads σ ε α ι) (events : List (Happening σ ε α ι))
    (run : ThreadRun prog threads events last) :
    Fitting prog threads.world.running → Pending prog threads.detached → ∀ event ∈ events, event.Fits prog := by
  induction run with
  | nil threads => exact fun _ _ => List.forall_mem_nil _
  | cons threads mid last event events first rest ih =>
      intro tasks pending
      obtain ⟨own, later, still⟩ := thread_fits threads mid event first tasks pending
      exact List.forall_mem_cons.mpr ⟨own, ih later still⟩

theorem changes_path (event : Happening σ ε α ι) (fits : event.Fits prog) (call : ι) (before after : σ)
    (changes : event.Changes call before after) : ∃ taken rest, After (prog call) (taken ++ [(before, after)]) rest := by
  cases changes with
  | acted call before rest after =>
      obtain ⟨taken, path⟩ := fits
      exact ⟨taken, rest, path⟩
  | landed call taken before after =>
      obtain ⟨rest, path⟩ := fits
      exact ⟨taken, rest, path⟩

-- A step changes the state by an action, or not at all.
theorem thread_between (threads after : Threads σ ε α ι) (event : Happening σ ε α ι) (step : ThreadStep prog threads event after) :
    after.world.state = threads.world.state ∨ ∃ call, event.Changes call threads.world.state after.world.state := by
  cases step with
  | runs world after event detached step =>
      have between := step_between world after event step
      cases event with
      | acted call before rest later =>
          obtain ⟨rfl, rfl⟩ := between
          exact .inr ⟨call, .acted call _ rest _⟩
      | began | returned | failed => exact .inl between
  | givesUp => exact .inl rfl
  | lands state running before after one => exact .inr ⟨one.call, .landed one.call one.taken state (one.act state)⟩

-- A relation that every action of the run keeps to holds from its first state to its last.
theorem thread_relates (relates : σ → σ → Prop) (refl : ∀ state, relates state state)
    (trans : ∀ one two three, relates one two → relates two three → relates one three) (threads last : Threads σ ε α ι)
    (events : List (Happening σ ε α ι)) (run : ThreadRun prog threads events last)
    (each : ∀ event ∈ events, ∀ call before after, event.Changes call before after → relates before after) :
    relates threads.world.state last.world.state := by
  induction run with
  | nil threads => exact refl _
  | cons threads mid last event events first rest ih =>
      obtain ⟨own, others⟩ := List.forall_mem_cons.mp each
      rcases thread_between threads mid event first with same | ⟨call, changes⟩
      · exact same ▸ ih others
      · exact trans _ _ _ (own call _ _ changes) (ih others)

-- What holds of every call that begins holds of every call that is running or acts.
theorem thread_began (holds : ι → Prop) (threads last : Threads σ ε α ι) (events : List (Happening σ ε α ι))
    (run : ThreadRun prog threads events last) (running : ∀ task ∈ threads.world.running, holds task.call)
    (pending : ∀ one ∈ threads.detached, holds one.call) (began : ∀ call, .ran (.began call) ∈ events → holds call) :
    (∀ task ∈ last.world.running, holds task.call) ∧
      ∀ event ∈ events, ∀ call before after, event.Changes call before after → holds call := by
  induction run with
  | nil threads => exact ⟨running, List.forall_mem_nil _⟩
  | cons threads mid last event events first rest ih =>
      have begins : ∀ call, .ran (.began call) ∈ events → holds call := fun call member => began call (List.mem_cons_of_mem _ member)
      cases first with
      | runs world after event detached step =>
          obtain ⟨tasks, acts⟩ := step_began holds world after event step running fun call same =>
            began call (same ▸ List.mem_cons_self)
          obtain ⟨lastTasks, later⟩ := ih tasks pending begins
          refine ⟨lastTasks, List.forall_mem_cons.mpr ⟨fun call before after changes => ?_, later⟩⟩
          cases changes with
          | acted call before rest after => exact acts call before rest after rfl
      | givesUp state before after call taken step next detached =>
          obtain ⟨own, others⟩ : holds call ∧ ∀ task ∈ before ++ after, holds task.call :=
            ⟨running _ (List.mem_append_right _ List.mem_cons_self), fun task member =>
              running task ((List.Sublist.append_left (List.sublist_cons_self _ after) before).subset member)⟩
          obtain ⟨lastTasks, later⟩ := ih others (List.forall_mem_cons.mpr ⟨own, pending⟩) begins
          exact ⟨lastTasks, List.forall_mem_cons.mpr ⟨fun _ _ _ changes => (nomatch changes), later⟩⟩
      | lands state running before after one =>
          have own := pending one (List.mem_append_right _ List.mem_cons_self)
          obtain ⟨lastTasks, later⟩ := ih running (fun other member =>
            pending other ((List.Sublist.append_left (List.sublist_cons_self one after) before).subset member)) begins
          refine ⟨lastTasks, List.forall_mem_cons.mpr ⟨fun call before after changes => ?_, later⟩⟩
          cases changes with
          | landed => exact own

theorem thread_shown (shown : σ → Prop) (call : ι) (threads last : Threads σ ε α ι) (events : List (Happening σ ε α ι))
    (run : ThreadRun prog threads events last) (holds : Shown shown call threads.world)
    (kept : ∀ event ∈ events, ∀ other before after, event.Changes other before after → shown before → shown after) :
    Shown shown call last.world := by
  induction run with
  | nil threads => exact holds
  | cons threads mid last event events first rest ih =>
      obtain ⟨own, others⟩ := List.forall_mem_cons.mp kept
      refine ih ?_ others
      cases first with
      | runs world after event detached step =>
          exact step_shown shown call world after event step holds fun other before left later same =>
            own other before later (same ▸ .acted other before left later)
      | givesUp state before after other taken step next detached =>
          exact fun task member => holds task ((List.Sublist.append_left (List.sublist_cons_self _ after) before).subset member)
      | lands state running before after one =>
          exact fun task member same pair inside yes =>
            own one.call state _ (.landed one.call one.taken state (one.act state)) (holds task member same pair inside yes)

end Rules

end Schedule
