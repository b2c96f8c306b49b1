import SessionSync.Lib.Actions

set_option autoImplicit false

namespace Gate

variable {σ ε α : Type}

-- How a request holds the read/write lock: not at all, with others, or alone.
inductive Mode where
  | free
  | shared
  | exclusive
deriving DecidableEq, Repr

def Mode.together : Mode → Mode → Prop
  | .shared, .exclusive | .exclusive, .shared | .exclusive, .exclusive => False
  | _, _ => True

theorem together_symm (one other : Mode) (beside : one.together other) : other.together one := by
  cases one <;> cases other <;> exact beside

-- The requests a server answers, what it runs before it serves, and how the state
-- moves by itself.
structure System (σ ε α : Type) : Type 1 where
  request : Mode → Prog σ ε α → Prop
  boot : Prog σ ε α
  drift : σ → σ → Prop

-- A request holds its lock for as long as it is running.
structure World (σ ε α : Type) : Type 1 where
  state : σ
  running : List (Mode × Prog σ ε α)
  serving : Bool
  replies : List α

inductive Step (sys : System σ ε α) : World σ ε α → World σ ε α → Prop where
  | arrive (world : World σ ε α) (mode : Mode) (prog : Prog σ ε α) (asked : sys.request mode prog)
      (open_ : world.serving = true) (granted : ∀ task ∈ world.running, mode.together task.1) :
      Step sys world { world with running := (mode, prog) :: world.running }
  | act (state : σ) (before after : List (Mode × Prog σ ε α)) (mode : Mode) {β : Type} (step : σ → β × σ)
      (rest : β → Prog σ ε α) (serving : Bool) (replies : List α) :
      Step sys ⟨state, before ++ (mode, .act step rest) :: after, serving, replies⟩
        ⟨(step state).2, before ++ (mode, rest (step state).1) :: after, serving, replies⟩
  | reply (state : σ) (before after : List (Mode × Prog σ ε α)) (mode : Mode) (value : α) (replies : List α) :
      Step sys ⟨state, before ++ (mode, .ret value) :: after, true, replies⟩ ⟨state, before ++ after, true, value :: replies⟩
  | booted (state : σ) (value : α) (replies : List α) :
      Step sys ⟨state, [(.exclusive, .ret value)], false, replies⟩ ⟨state, [], true, replies⟩
  -- A request that fails, or is given up, stops where it is. What it may leave under way
  -- in a thread is a step of the threaded server.
  | drop (state : σ) (before after : List (Mode × Prog σ ε α)) (task : Mode × Prog σ ε α) (serving : Bool) (replies : List α) :
      Step sys ⟨state, before ++ task :: after, serving, replies⟩ ⟨state, before ++ after, serving, replies⟩
  | crash (world : World σ ε α) : Step sys world ⟨world.state, [(.exclusive, sys.boot)], false, world.replies⟩
  | drift (world : World σ ε α) (after : σ) (moved : sys.drift world.state after) :
      Step sys world { world with state := after }

-- The requests that a step ends before they are through.
inductive Stopped (sys : System σ ε α) : World σ ε α → World σ ε α → Mode × Prog σ ε α → Prop where
  | drop (state : σ) (before after : List (Mode × Prog σ ε α)) (task : Mode × Prog σ ε α) (serving : Bool) (replies : List α) :
      Stopped sys ⟨state, before ++ task :: after, serving, replies⟩ ⟨state, before ++ after, serving, replies⟩ task
  | crash (world : World σ ε α) (task : Mode × Prog σ ε α) (member : task ∈ world.running) :
      Stopped sys world ⟨world.state, [(.exclusive, sys.boot)], false, world.replies⟩ task

def Reachable (sys : System σ ε α) (start : σ) (world : World σ ε α) : Prop :=
  Relation.ReflTransGen (Step sys) ⟨start, [(.exclusive, sys.boot)], false, []⟩ world

section Rules

variable (sys : System σ ε α) (inv : σ → Prop) (rely guar : Mode → σ → σ → Prop) (kept : α → σ → Prop)

-- A reply is wanted once the server serves; the outcome of the boot is not one.
def wanted (serving : Bool) (outcome : Except ε α) (state : σ) : Prop := serving = true → Prog.okay kept outcome state

structure Rules : Prop where
  refl : ∀ mode a, rely mode a a
  trans : ∀ mode a b c, rely mode a b → rely mode b c → rely mode a c
  guarInv : ∀ mode a b, inv a → guar mode a b → inv b
  guarRely : ∀ mode other a b, mode.together other → guar mode a b → rely other a b
  driftInv : ∀ a b, inv a → sys.drift a b → inv b
  driftRely : ∀ mode a b, sys.drift a b → rely mode a b
  keptRely : ∀ value a b, rely .free a b → kept value a → kept value b
  requests : ∀ mode prog, sys.request mode prog → ∀ state, inv state →
    prog.Wp inv (rely mode) (guar mode) (Prog.okay kept) state
  boot : ∀ state, inv state → sys.boot.Wp inv (rely .exclusive) (guar .exclusive) (fun _ _ => True) state

structure Sound (world : World σ ε α) : Prop where
  holds : inv world.state
  tasks : ∀ task ∈ world.running, task.2.Wp inv (rely task.1) (guar task.1) (wanted kept world.serving) world.state
  beside : world.running.Pairwise fun one other => one.1.together other.1
  replies : ∀ value ∈ world.replies, kept value world.state

variable {sys inv rely guar kept} (rules : Rules sys inv rely guar kept)

include rules

theorem boot_sound (state : σ) (replies : List α) (holds : inv state) (given : ∀ value ∈ replies, kept value state) :
    Sound inv rely guar kept ⟨state, [(.exclusive, sys.boot)], false, replies⟩ := by
  refine ⟨holds, fun task member => ?_, List.pairwise_singleton _ _, given⟩
  cases List.mem_singleton.mp member
  exact Prog.wp_mono _ _ _ state (fun _ _ _ => nofun) (rules.boot state holds)

-- A task beside the one that moved goes on from the new state.
theorem moved_sound (state after : σ) (mode : Mode) (tasks : List (Mode × Prog σ ε α)) (serving : Bool)
    (moved : ∀ other, mode.together other → rely other state after) (beside : ∀ task ∈ tasks, mode.together task.1)
    (hold : ∀ task ∈ tasks, task.2.Wp inv (rely task.1) (guar task.1) (wanted kept serving) state) :
    ∀ task ∈ tasks, task.2.Wp inv (rely task.1) (guar task.1) (wanted kept serving) after := by
  intro task member
  exact Prog.wp_rely (rules.trans task.1) task.2 _ state after (moved task.1 (beside task member)) (hold task member)

theorem act_sound (state : σ) (before after : List (Mode × Prog σ ε α)) (mode : Mode) {β : Type} (step : σ → β × σ)
    (rest : β → Prog σ ε α) (serving : Bool) (replies : List α)
    (sound : Sound inv rely guar kept ⟨state, before ++ (mode, .act step rest) :: after, serving, replies⟩) :
    guar mode state (step state).2 ∧
      Sound inv rely guar kept ⟨(step state).2, before ++ (mode, rest (step state).1) :: after, serving, replies⟩ := by
  obtain ⟨holds, tasks, beside, given⟩ := sound
  obtain ⟨left, right, across⟩ := List.pairwise_append.mp beside
  obtain ⟨follows, rightRest⟩ := List.pairwise_cons.mp right
  have own := tasks (mode, .act step rest) (List.mem_append_right _ List.mem_cons_self)
  obtain ⟨keeps, later⟩ := own state (rules.refl mode state) holds
  have moved : ∀ other, mode.together other → rely other state (step state).2 := fun other both =>
    rules.guarRely mode other state _ both keeps
  refine ⟨keeps, rules.guarInv mode state _ holds keeps, fun task member => ?_, ?_, fun value member => ?_⟩
  · rcases List.mem_append.mp member with earlier | rest_
    · refine moved_sound rules state _ mode before serving moved (fun other inside => ?_) (fun other inside => ?_) task earlier
      · exact together_symm _ _ (across other inside _ List.mem_cons_self)
      · exact tasks other (List.mem_append_left _ inside)
    · rcases List.mem_cons.mp rest_ with rfl | inside
      · exact later
      · exact moved_sound rules state _ mode after serving moved follows
          (fun other inside => tasks other (List.mem_append_right _ (List.mem_cons_of_mem _ inside))) task inside
  · refine List.pairwise_append.mpr ⟨left, List.pairwise_cons.mpr ⟨follows, rightRest⟩, fun one first other second => ?_⟩
    rcases List.mem_cons.mp second with rfl | inside
    · exact across one first (mode, .act step rest) List.mem_cons_self
    · exact across one first other (List.mem_cons_of_mem _ inside)
  · have free : mode.together .free := by cases mode <;> trivial
    exact rules.keptRely value state _ (moved .free free) (given value member)

omit rules in
theorem fewer_sound (state : σ) (before after : List (Mode × Prog σ ε α)) (task : Mode × Prog σ ε α) (serving : Bool)
    (replies : List α) (sound : Sound inv rely guar kept ⟨state, before ++ task :: after, serving, replies⟩) :
    Sound inv rely guar kept ⟨state, before ++ after, serving, replies⟩ := by
  have smaller : (before ++ after).Sublist (before ++ task :: after) := List.Sublist.append_left (List.sublist_cons_self _ _) before
  exact ⟨sound.holds, fun other member => sound.tasks other (smaller.subset member), sound.beside.sublist smaller, sound.replies⟩

theorem step_sound (world after : World σ ε α) (step : Step sys world after) (sound : Sound inv rely guar kept world) :
    Sound inv rely guar kept after := by
  cases step with
  | arrive world mode prog asked open_ granted =>
      refine ⟨sound.holds, fun task member => ?_, List.pairwise_cons.mpr ⟨granted, sound.beside⟩, sound.replies⟩
      rcases List.mem_cons.mp member with rfl | inside
      · rw [open_]
        exact Prog.wp_mono _ _ _ _ (fun _ _ holds _ => holds) (rules.requests mode prog asked _ sound.holds)
      · exact sound.tasks task inside
  | act state before after mode step rest serving replies =>
      exact (act_sound rules state before after mode step rest serving replies sound).2
  | reply state before after mode value replies =>
      obtain ⟨holds, tasks, beside, given⟩ := sound
      have own := tasks (mode, .ret value) (List.mem_append_right _ List.mem_cons_self)
      have smaller : (before ++ after).Sublist (before ++ (mode, Prog.ret value) :: after) :=
        List.Sublist.append_left (List.sublist_cons_self _ _) before
      refine ⟨holds, fun task member => tasks task (smaller.subset member), beside.sublist smaller, fun other member => ?_⟩
      rcases List.mem_cons.mp member with rfl | earlier
      · exact own state (rules.refl mode state) holds rfl _ rfl
      · exact given other earlier
  | booted state value replies => exact ⟨sound.holds, nofun, List.Pairwise.nil, sound.replies⟩
  | drop state before after task serving replies => exact fewer_sound state before after task serving replies sound
  | crash world => exact boot_sound rules world.state world.replies sound.holds sound.replies
  | drift world after moved =>
      refine ⟨rules.driftInv _ _ sound.holds moved, fun task member => ?_, sound.beside, fun value member => ?_⟩
      · exact Prog.wp_rely (rules.trans task.1) task.2 _ _ _ (rules.driftRely task.1 _ _ moved) (sound.tasks task member)
      · exact rules.keptRely value _ _ (rules.driftRely .free _ _ moved) (sound.replies value member)

theorem reachable_sound (start : σ) (initial : inv start) (world : World σ ε α) (reached : Reachable sys start world) :
    Sound inv rely guar kept world := by
  induction reached with
  | refl => exact boot_sound rules start [] initial nofun
  | tail _ step ih => exact step_sound rules _ _ step ih

theorem steps_sound (world later : World σ ε α) (run : Relation.ReflTransGen (Step sys) world later)
    (sound : Sound inv rely guar kept world) : Sound inv rely guar kept later := by
  induction run with
  | refl => exact sound
  | tail _ step ih => exact step_sound rules _ _ step ih

theorem step_moves (world after : World σ ε α) (step : Step sys world after) (sound : Sound inv rely guar kept world) :
    after.state = world.state ∨ sys.drift world.state after.state ∨ ∃ mode, guar mode world.state after.state := by
  cases step with
  | act state before after mode step rest serving replies =>
      exact .inr (.inr ⟨mode, (act_sound rules state before after mode step rest serving replies sound).1⟩)
  | drift world after moved => exact .inr (.inl moved)
  | arrive | reply | booted | drop | crash => exact .inl rfl

end Rules

section Tasks

variable (sys : System σ ε α) (start : σ) (holds : Mode → Prog σ ε α → Prop)
  (asked : ∀ mode prog, sys.request mode prog → holds mode prog) (boot : holds .exclusive sys.boot)
  (acts : ∀ (mode : Mode) (β : Type) (step : σ → β × σ) (rest : β → Prog σ ε α), holds mode (.act step rest) →
    ∀ state, holds mode (rest (step state).1))

include asked boot acts

theorem step_tasks (world after : World σ ε α) (step : Step sys world after) (tasks : ∀ task ∈ world.running, holds task.1 task.2) :
    ∀ task ∈ after.running, holds task.1 task.2 := by
  cases step with
  | arrive world mode prog wanted open_ granted => exact List.forall_mem_cons.mpr ⟨asked mode prog wanted, tasks⟩
  | act state before after mode step rest serving replies =>
      intro task member
      rcases List.mem_append.mp member with earlier | later
      · exact tasks task (List.mem_append_left _ earlier)
      · rcases List.mem_cons.mp later with same | behind
        · exact same ▸ acts mode _ step rest (tasks (mode, .act step rest) (List.mem_append_right _ List.mem_cons_self)) state
        · exact tasks task (List.mem_append_right _ (List.mem_cons_of_mem _ behind))
  | reply state before after mode value replies =>
      exact fun task member => tasks task ((List.Sublist.append_left (List.sublist_cons_self _ _) before).subset member)
  | booted state value replies => exact List.forall_mem_nil _
  | drop state before after task serving replies =>
      exact fun other member => tasks other ((List.Sublist.append_left (List.sublist_cons_self _ _) before).subset member)
  | crash world => exact fun task member => List.mem_singleton.mp member ▸ boot
  | drift world after moved => exact tasks

-- What every request starts with and no action of one loses.
theorem reachable_tasks (world : World σ ε α) (reached : Reachable sys start world) :
    ∀ task ∈ world.running, holds task.1 task.2 := by
  induction reached with
  | refl => exact fun task member => List.mem_singleton.mp member ▸ boot
  | tail _ step ih => exact step_tasks sys holds asked boot acts _ _ step ih

end Tasks

-- An invariant that every action keeps by itself.
theorem reachable_keeps (sys : System σ ε α) (start : σ) (inv : σ → Prop) (initial : inv start)
    (requests : ∀ mode prog, sys.request mode prog → prog.Acts fun state after => inv state → inv after)
    (boot : sys.boot.Acts fun state after => inv state → inv after)
    (drift : ∀ state after, sys.drift state after → inv state → inv after) (world : World σ ε α)
    (reached : Reachable sys start world) : inv world.state := by
  have acting : ∀ world, Reachable sys start world → ∀ task ∈ world.running, task.2.Acts fun state after => inv state → inv after :=
    reachable_tasks sys start (fun _ prog => prog.Acts fun state after => inv state → inv after) requests boot
      (fun _ _ _ _ holds state => (holds state).2)
  induction reached with
  | refl => exact initial
  | tail earlier step ih =>
      have tasks := acting _ earlier
      cases step with
      | act state before after mode step rest serving replies =>
          exact (tasks (mode, .act step rest) (List.mem_append_right _ List.mem_cons_self) state).1 ih
      | drift world after moved => exact drift _ _ moved ih
      | arrive | reply | booted | drop | crash => exact ih

section Alone

variable (sys : System σ ε α) (start : σ)

-- What a run that nothing disturbs does to the world.
theorem acts_reachable (mode : Mode) (serving : Bool) (replies : List α) (prog : Prog σ ε α) (state : σ)
    (reached : Reachable sys start ⟨state, [(mode, prog)], serving, replies⟩) :
    (∀ value, (prog.exec state).1 = .ok value →
      Reachable sys start ⟨(prog.exec state).2, [(mode, .ret value)], serving, replies⟩) ∧
      Reachable sys start ⟨(prog.exec state).2, [], serving, replies⟩ := by
  induction prog generalizing state with
  | ret value =>
      refine ⟨fun other same => ?_, reached.tail (.drop state [] [] (mode, .ret value) serving replies)⟩
      cases same
      exact reached
  | fail error => exact ⟨nofun, reached.tail (.drop state [] [] (mode, .fail error) serving replies)⟩
  | act step rest ih => exact ih _ _ (reached.tail (.act state [] [] mode step rest serving replies))

theorem act_reachable (mode : Mode) (serving : Bool) (replies : List α) (prog : Prog σ ε α) (state after : σ) {β : Type}
    (step : σ → β × σ) (rest : β → Prog σ ε α) (value : β) (shape : prog = .act step rest) (answer : step state = (value, after))
    (reached : Reachable sys start ⟨state, [(mode, prog)], serving, replies⟩) :
    Reachable sys start ⟨after, [(mode, rest value)], serving, replies⟩ := by
  have moved := @Step.act σ ε α sys state [] [] mode β step rest serving replies
  rw [answer] at moved
  rw [shape] at reached
  exact reached.tail moved

theorem boot_reachable (value : α) (after : σ) (run : sys.boot.exec start = (.ok value, after)) :
    Reachable sys start ⟨after, [], true, []⟩ := by
  have acts := (acts_reachable sys start .exclusive false [] sys.boot start .refl).1 value (congrArg Prod.fst run)
  rw [run] at acts
  exact acts.tail (.booted after value [])

theorem request_arrives (mode : Mode) (prog : Prog σ ε α) (asked : sys.request mode prog) (state : σ) (replies : List α)
    (reached : Reachable sys start ⟨state, [], true, replies⟩) : Reachable sys start ⟨state, [(mode, prog)], true, replies⟩ :=
  reached.tail (.arrive ⟨state, [], true, replies⟩ mode prog asked rfl nofun)

theorem request_reachable (mode : Mode) (prog : Prog σ ε α) (asked : sys.request mode prog) (state : σ) (replies : List α)
    (reached : Reachable sys start ⟨state, [], true, replies⟩) : Reachable sys start ⟨(prog.exec state).2, [], true, replies⟩ :=
  (acts_reachable sys start mode true replies prog state (request_arrives sys start mode prog asked state replies reached)).2

theorem cut_reachable (mode : Mode) (serving : Bool) (replies : List α) (prog : Prog σ ε α) (state seen : σ)
    (cut : prog.Cut state seen) (reached : Reachable sys start ⟨state, [(mode, prog)], serving, replies⟩) :
    Reachable sys start ⟨seen, [], serving, replies⟩ := by
  induction prog generalizing state with
  | ret value =>
      cases cut
      exact reached.tail (.drop seen [] [] (mode, .ret value) serving replies)
  | fail error =>
      cases cut
      exact reached.tail (.drop seen [] [] (mode, .fail error) serving replies)
  | act step rest ih =>
      rcases cut with here | later
      · cases here
        exact reached.tail (.drop seen [] [] (mode, .act step rest) serving replies)
      · exact ih _ _ later (reached.tail (.act state [] [] mode step rest serving replies))

-- A request that is given up anywhere on its way.
theorem request_cut (mode : Mode) (prog : Prog σ ε α) (asked : sys.request mode prog) (state seen : σ) (replies : List α)
    (cut : prog.Cut state seen) (reached : Reachable sys start ⟨state, [], true, replies⟩) :
    Reachable sys start ⟨seen, [], true, replies⟩ :=
  cut_reachable sys start mode true replies prog state seen cut (request_arrives sys start mode prog asked state replies reached)

theorem reply_reachable (mode : Mode) (prog : Prog σ ε α) (asked : sys.request mode prog) (state after : σ) (replies : List α)
    (value : α) (reached : Reachable sys start ⟨state, [], true, replies⟩) (run : prog.exec state = (.ok value, after)) :
    Reachable sys start ⟨after, [], true, value :: replies⟩ := by
  have arrived := request_arrives sys start mode prog asked state replies reached
  have acts := (acts_reachable sys start mode true replies prog state arrived).1 value (congrArg Prod.fst run)
  rw [run] at acts
  exact acts.tail (.reply after [] [] mode value replies)

end Alone

end Gate
