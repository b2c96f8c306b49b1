import SessionSync.Lib.Gate

set_option autoImplicit false

namespace Gate

variable {σ ε α : Type}

-- A server whose actions run in threads of their own. What is under way belongs to requests
-- that were given up, and holds no lock.
structure Threaded (σ ε α : Type) : Type 1 where
  world : World σ ε α
  underWay : List (σ → σ)

-- A request that is given up while an action of it is under way leaves the action to happen
-- at any later moment, once others may have its lock. A crash ends the threads.
inductive ThreadedStep (sys : System σ ε α) : Threaded σ ε α → Threaded σ ε α → Prop where
  | runs (world after : World σ ε α) (underWay : List (σ → σ)) (step : Step sys world after)
      (alive : world.serving = true → after.serving = true) : ThreadedStep sys ⟨world, underWay⟩ ⟨after, underWay⟩
  | leaves (state : σ) (before after : List (Mode × Prog σ ε α)) (mode : Mode) {β : Type} (step : σ → β × σ)
      (rest : β → Prog σ ε α) (replies : List α) (underWay : List (σ → σ)) :
      ThreadedStep sys ⟨⟨state, before ++ (mode, .act step rest) :: after, true, replies⟩, underWay⟩
        ⟨⟨state, before ++ after, true, replies⟩, (fun state => (step state).2) :: underWay⟩
  | lands (world : World σ ε α) (before after : List (σ → σ)) (action : σ → σ) :
      ThreadedStep sys ⟨world, before ++ action :: after⟩ ⟨{ world with state := action world.state }, before ++ after⟩
  | crash (world : World σ ε α) (underWay : List (σ → σ)) :
      ThreadedStep sys ⟨world, underWay⟩ ⟨⟨world.state, [(.exclusive, sys.boot)], false, world.replies⟩, []⟩

-- The requests that a step ends before they are through.
inductive ThreadedStopped (sys : System σ ε α) : Threaded σ ε α → Threaded σ ε α → Mode × Prog σ ε α → Prop where
  | runs (world after : World σ ε α) (underWay : List (σ → σ)) (task : Mode × Prog σ ε α) (stopped : Stopped sys world after task) :
      ThreadedStopped sys ⟨world, underWay⟩ ⟨after, underWay⟩ task
  | leaves (state : σ) (before after : List (Mode × Prog σ ε α)) (mode : Mode) {β : Type} (step : σ → β × σ)
      (rest : β → Prog σ ε α) (replies : List α) (underWay : List (σ → σ)) :
      ThreadedStopped sys ⟨⟨state, before ++ (mode, .act step rest) :: after, true, replies⟩, underWay⟩
        ⟨⟨state, before ++ after, true, replies⟩, (fun state => (step state).2) :: underWay⟩ (mode, .act step rest)
  | crash (world : World σ ε α) (underWay : List (σ → σ)) (task : Mode × Prog σ ε α) (member : task ∈ world.running) :
      ThreadedStopped sys ⟨world, underWay⟩ ⟨⟨world.state, [(.exclusive, sys.boot)], false, world.replies⟩, []⟩ task

theorem stopped_running (sys : System σ ε α) (threads after : Threaded σ ε α) (task : Mode × Prog σ ε α)
    (stopped : ThreadedStopped sys threads after task) : task ∈ threads.world.running := by
  cases stopped with
  | runs world after underWay task stopped =>
      cases stopped with
      | drop => exact List.mem_append_right _ List.mem_cons_self
      | crash world task member => exact member
  | leaves => exact List.mem_append_right _ List.mem_cons_self
  | crash world underWay task member => exact member

section Rules

variable {sys : System σ ε α} {inv : σ → Prop} {rely guar : Mode → σ → σ → Prop} {kept : α → σ → Prop}

-- An action that every request may find done beside it.
theorem lands_sound (rules : Rules sys inv rely guar kept) (world : World σ ε α) (action : σ → σ)
    (quiet : ∀ mode, rely mode world.state (action world.state)) (keeps : inv world.state → inv (action world.state))
    (sound : Sound inv rely guar kept world) : Sound inv rely guar kept { world with state := action world.state } where
  holds := keeps sound.holds
  tasks task member := Prog.wp_rely (rules.trans task.1) task.2 _ _ _ (quiet task.1) (sound.tasks task member)
  beside := sound.beside
  replies value member := rules.keptRely value _ _ (quiet .free) (sound.replies value member)

end Rules

end Gate
