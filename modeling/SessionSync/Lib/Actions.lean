import SessionSync.Lib.Crash
import SessionSync.Lib.Schedule

set_option autoImplicit false

namespace Prog

variable {σ ε α β : Type}

-- Every action of the program, whatever state it meets, with what is left after it.
def Steps (allowed : σ → σ → Prog σ ε α → Prop) : Prog σ ε α → Prop
  | .ret _ => True
  | .fail _ => True
  | .act step rest => ∀ state, allowed state (step state).2 (rest (step state).1) ∧ (rest (step state).1).Steps allowed

-- Every action, by the states around it alone.
def Acts (allowed : σ → σ → Prop) (prog : Prog σ ε α) : Prop := prog.Steps fun state after _ => allowed state after

-- The program shows something on every way to a value, in a state that one of its
-- actions leaves; `seen` says that it has been shown before.
def Shows (shown : σ → Prop) : Prop → Prog σ ε α → Prop
  | seen, .ret _ => seen
  | _, .fail _ => True
  | seen, .act step rest => ∀ state, (rest (step state).1).Shows shown (seen ∨ shown (step state).2)

section Rules

variable {allowed : σ → σ → Prop} {sorted : σ → σ → Prog σ ε β → Prop}

theorem steps_bind (prog : Prog σ ε α) (next : α → Prog σ ε β) (first : prog.Acts allowed)
    (fits : ∀ state after rest, allowed state after → sorted state after rest) (later : ∀ value, (next value).Steps sorted) :
    (prog >>= next).Steps sorted := by
  induction prog with
  | ret value => exact later value
  | fail error => trivial
  | act step rest ih => exact fun state => ⟨fits _ _ _ (first state).1, ih _ (first state).2⟩

theorem acts_bind (prog : Prog σ ε α) (next : α → Prog σ ε β) (first : prog.Acts allowed)
    (later : ∀ value, (next value).Acts allowed) :
    (prog >>= next).Acts allowed := steps_bind prog next first (fun _ _ _ fits => fits) later

theorem steps_mono (strong weak : σ → σ → Prog σ ε α → Prop)
    (imp : ∀ state after rest, strong state after rest → weak state after rest) (prog : Prog σ ε α) (holds : prog.Steps strong) :
    prog.Steps weak := by
  induction prog with
  | ret value => trivial
  | fail error => trivial
  | act step rest ih => exact fun state => ⟨imp _ _ _ (holds state).1, ih _ (holds state).2⟩

theorem steps_map (wrap : α → β) (sorted : σ → σ → Prog σ ε β → Prop) (prog : Prog σ ε α)
    (holds : prog.Steps fun state after rest => sorted state after (wrap <$> rest)) : (wrap <$> prog).Steps sorted := by
  induction prog with
  | ret value => trivial
  | fail error => trivial
  | act step rest ih => exact fun state => ⟨(holds state).1, ih _ (holds state).2⟩

section Last

variable (quiet loud : σ → σ → Prop)

-- Only the last action of a program may be of the other kind, and it ends in a value.
def LoudLast (state after : σ) (rest : Prog σ ε α) : Prop := quiet state after ∨ loud state after ∧ ∃ value, rest = .ret value

theorem last_bind (prog : Prog σ ε α) (next : α → Prog σ ε β) (first : prog.Steps (LoudLast quiet loud))
    (later : ∀ value, (next value).Acts quiet) :
    (prog >>= next).Steps fun state after rest => quiet state after ∨ loud state after ∧ ∃ value, rest = next value := by
  induction prog with
  | ret value => exact steps_mono _ _ (fun _ _ _ => .inl) _ (later value)
  | fail error => trivial
  | act step rest ih =>
      intro state
      refine ⟨(first state).1.imp_right fun ⟨loudly, value, same⟩ => ⟨loudly, value, ?_⟩, ih _ (first state).2⟩
      show (rest (step state).1).bind next = next value
      rw [same]
      rfl

theorem last_error {ε' : Type} (wrap : ε → ε') (prog : Prog σ ε α) (first : prog.Steps (LoudLast quiet loud)) :
    (prog.mapError wrap).Steps (LoudLast quiet loud) := by
  induction prog with
  | ret value => trivial
  | fail error => trivial
  | act step rest ih =>
      intro state
      refine ⟨(first state).1.imp_right fun ⟨loudly, value, same⟩ => ⟨loudly, value, ?_⟩, ih _ (first state).2⟩
      show (rest (step state).1).mapError wrap = .ret value
      rw [same]
      rfl

end Last

theorem steps_of_except (result : Except ε α) (other : σ → σ → Prog σ ε α → Prop) : (ofExcept result).Steps other := by
  cases result <;> trivial

theorem acts_any (prog : Prog σ ε α) : prog.Acts fun _ _ => True := by
  induction prog with
  | ret value => trivial
  | fail error => trivial
  | act step rest ih => exact fun state => ⟨trivial, ih _⟩

theorem acts_query (look : σ → α) (idle : ∀ state, allowed state state) : (query look : Prog σ ε α).Acts allowed :=
  fun state => ⟨idle state, trivial⟩

theorem acts_update (change : σ → σ) (fits : ∀ state, allowed state (change state)) : (update change : Prog σ ε Unit).Acts allowed :=
  fun state => ⟨fits state, trivial⟩

theorem acts_transact (run : σ → Except ε (α × σ)) (idle : ∀ state, allowed state state)
    (commits : ∀ state value after, run state = .ok (value, after) → allowed state after) : (transact run).Acts allowed := by
  intro state
  refine ⟨?_, steps_of_except _ _⟩
  unfold attemptStep
  cases outcome : run state with
  | error error => exact idle state
  | ok pair => exact commits state pair.1 pair.2 outcome

theorem acts_for_each (body : α → Prog σ ε Unit) (each : ∀ item, (body item).Acts allowed) (items : List α) :
    (forEach items body).Acts allowed := by
  induction items with
  | nil => trivial
  | cons item rest ih => exact acts_bind _ _ (each item) fun _ => ih

theorem acts_map (wrap : α → β) (prog : Prog σ ε α) (holds : prog.Acts allowed) : (wrap <$> prog).Acts allowed :=
  acts_bind prog _ holds fun _ => trivial

theorem acts_map_error {ε' : Type} (wrap : ε → ε') (prog : Prog σ ε α) (holds : prog.Acts allowed) :
    (prog.mapError wrap).Acts allowed := by
  induction prog with
  | ret value => trivial
  | fail error => trivial
  | act step rest ih => exact fun state => ⟨(holds state).1, ih _ (holds state).2⟩

theorem acts_attempt {ε' : Type} (prog : Prog σ ε α) (holds : prog.Acts allowed) :
    (prog.attempt : Prog σ ε' (Except ε α)).Acts allowed := by
  induction prog with
  | ret value => trivial
  | fail error => trivial
  | act step rest ih => exact fun state => ⟨(holds state).1, ih _ (holds state).2⟩

-- What every action keeps to holds from the start to wherever the program is cut off.
theorem acts_cut (refl : ∀ state, allowed state state)
    (trans : ∀ one two three, allowed one two → allowed two three → allowed one three) (prog : Prog σ ε α)
    (holds : prog.Acts allowed) (state seen : σ) (cut : prog.Cut state seen) : allowed state seen := by
  induction prog generalizing state with
  | ret value => exact cut ▸ refl state
  | fail error => exact cut ▸ refl state
  | act step rest ih =>
      rcases cut with here | later
      · exact here ▸ refl state
      · exact trans _ _ _ (holds state).1 (ih _ (holds state).2 _ later)

theorem acts_exec (refl : ∀ state, allowed state state)
    (trans : ∀ one two three, allowed one two → allowed two three → allowed one three) (prog : Prog σ ε α)
    (holds : prog.Acts allowed) (state : σ) : allowed state (prog.exec state).2 := by
  induction prog generalizing state with
  | ret value => exact refl state
  | fail error => exact refl state
  | act step rest ih => exact trans _ _ _ (holds state).1 (ih _ (holds state).2 _)

theorem shows_mono (shown : σ → Prop) (prog : Prog σ ε α) (seen other : Prop) (more : seen → other) (holds : prog.Shows shown seen) :
    prog.Shows shown other := by
  induction prog generalizing seen other with
  | ret value => exact more holds
  | fail error => trivial
  | act step rest ih => exact fun state => ih _ _ _ (Or.imp_left more) (holds state)

theorem shows_seen (shown : σ → Prop) (prog : Prog σ ε α) (seen : Prop) (yes : seen) : prog.Shows shown seen := by
  induction prog generalizing seen with
  | ret value => exact yes
  | fail error => trivial
  | act step rest ih => exact fun state => ih _ _ (.inl yes)

theorem shows_bind (shown : σ → Prop) (prog : Prog σ ε α) (next : α → Prog σ ε β) (seen : Prop)
    (later : ∀ value, (next value).Shows shown seen) : (prog >>= next).Shows shown seen := by
  induction prog with
  | ret value => exact later value
  | fail error => trivial
  | act step rest ih => exact fun state => shows_mono shown _ seen _ .inl (ih (step state).1)

-- Actions that keep to a guarantee wherever the invariant holds need nothing of the
-- others. What neither they nor the others can end holds at the end.
theorem wp_of_acts (inv : σ → Prop) (rely guar : σ → σ → Prop) (stays : σ → Prop) (prog : Prog σ ε α) (holds : prog.Acts allowed)
    (keeps : ∀ state after, inv state → allowed state after → guar state after)
    (relied : ∀ state after, rely state after → stays state → stays after)
    (guarded : ∀ state after, allowed state after → stays state → stays after) (state : σ) (yes : stays state) :
    prog.Wp inv rely guar (fun _ => stays) state := by
  induction prog generalizing state with
  | ret value => exact fun seen moved _ => relied state seen moved yes
  | fail error => exact fun seen moved _ => relied state seen moved yes
  | act step rest ih =>
      intro seen moved kept
      exact ⟨keeps seen _ kept (holds seen).1, ih _ (holds seen).2 _ (guarded seen _ (holds seen).1 (relied state seen moved yes))⟩

end Rules

end Prog

namespace Schedule

variable {σ ε α β ι : Type}

theorem after_map (wrap : β → α) (prog : Prog σ ε β) (taken : List (σ × σ)) (rest : Prog σ ε α)
    (left : After (wrap <$> prog) taken rest) :
    ∃ inner, After prog taken inner ∧ rest = wrap <$> inner := by
  induction taken generalizing prog with
  | nil => exact ⟨prog, (after_nil _ _).mpr rfl, (after_nil _ _).mp left⟩
  | cons pair taken ih =>
      cases prog with
      | ret value => exact left.elim
      | fail error => exact left.elim
      | act step next =>
          obtain ⟨ends, left⟩ := left
          obtain ⟨inner, path, same⟩ := ih _ left
          exact ⟨inner, ⟨ends, path⟩, same⟩

theorem after_acts (allowed : σ → σ → Prop) (prog rest : Prog σ ε α) (taken : List (σ × σ)) (holds : prog.Acts allowed)
    (left : After prog taken rest) : ∀ pair ∈ taken, allowed pair.1 pair.2 := by
  induction taken generalizing prog with
  | nil => exact List.forall_mem_nil _
  | cons pair taken ih =>
      cases prog with
      | ret value => exact left.elim
      | fail error => exact left.elim
      | act step next =>
          obtain ⟨fits, later⟩ := holds pair.1
          obtain ⟨ends, left⟩ := left
          exact List.forall_mem_cons.mpr ⟨ends ▸ fits, ih _ later left⟩

theorem after_steps (sorted : σ → σ → Prog σ ε α → Prop) (prog rest : Prog σ ε α) (taken : List (σ × σ)) (holds : prog.Steps sorted)
    (left : After prog taken rest) : rest.Steps sorted := by
  induction taken generalizing prog with
  | nil => exact (after_nil _ _).mp left ▸ holds
  | cons pair taken ih =>
      cases prog with
      | ret value => exact left.elim
      | fail error => exact left.elim
      | act step next => exact ih _ (holds pair.1).2 left.2

-- Where only the last action of a program may be of another kind, a program that has
-- not come to a value has taken none of that kind.
theorem after_unfinished (quiet : σ → σ → Prop) (prog rest : Prog σ ε α) (taken : List (σ × σ))
    (holds : prog.Steps fun state after rest => quiet state after ∨ ∃ value, rest = .ret value) (left : After prog taken rest)
    (open_ : ∀ value, rest ≠ .ret value) : ∀ pair ∈ taken, quiet pair.1 pair.2 := by
  induction taken generalizing prog with
  | nil => exact List.forall_mem_nil _
  | cons pair taken ih =>
      cases prog with
      | ret value => exact left.elim
      | fail error => exact left.elim
      | act step next =>
          obtain ⟨fits, later⟩ := holds pair.1
          obtain ⟨ends, left⟩ := left
          refine List.forall_mem_cons.mpr ⟨?_, ih _ later left⟩
          rcases fits with quiet_ | ⟨value, last⟩
          · exact ends ▸ quiet_
          · rw [last] at left
            cases taken with
            | nil => exact absurd ((after_nil _ _).mp left) (open_ value)
            | cons other more => exact left.elim

theorem after_shows (shown : σ → Prop) (prog : Prog σ ε α) (taken : List (σ × σ)) (value : α) (seen : Prop)
    (holds : prog.Shows shown seen) (left : After prog taken (.ret value)) : seen ∨ ∃ pair ∈ taken, shown pair.2 := by
  induction taken generalizing prog seen with
  | nil =>
      have last := (after_nil _ _).mp left
      subst last
      exact .inl holds
  | cons pair taken ih =>
      cases prog with
      | ret other => exact left.elim
      | fail error => exact left.elim
      | act step next =>
          obtain ⟨ends, left⟩ := left
          rcases ih _ _ (holds pair.1) left with (before | here) | ⟨later, member, found⟩
          · exact .inl before
          · exact .inr ⟨pair, List.mem_cons_self, ends ▸ here⟩
          · exact .inr ⟨later, List.mem_cons_of_mem _ member, found⟩

section Runs

variable {prog : ι → Prog σ ε α}

theorem step_began (holds : ι → Prop) (world after : World σ ε α ι) (event : Event σ ε α ι) (step : Step prog world event after)
    (running : ∀ task ∈ world.running, holds task.call) (began : ∀ call, event = .began call → holds call) :
    (∀ task ∈ after.running, holds task.call) ∧ ∀ call before rest later, event = .acted call before rest later → holds call := by
  have dropped : ∀ (left right : List (Task σ ε α ι)) (gone : Task σ ε α ι), (∀ task ∈ left ++ gone :: right, holds task.call) →
      ∀ task ∈ left ++ right, holds task.call := fun left right gone tasks task member =>
    tasks task ((List.Sublist.append_left (List.sublist_cons_self gone right) left).subset member)
  cases step with
  | begins state running_ call =>
      exact ⟨List.forall_mem_cons.mpr ⟨began call rfl, running⟩, fun _ _ _ _ same => by cases same⟩
  | acts state before after call taken step next =>
      have own : holds call := running _ (List.mem_append_right _ List.mem_cons_self)
      refine ⟨fun task member => ?_, fun _ _ _ _ same => by cases same; exact own⟩
      rcases List.mem_append.mp member with earlier | behind
      · exact running task (List.mem_append_left _ earlier)
      · rcases List.mem_cons.mp behind with same | inside
        · exact same ▸ own
        · exact running task (List.mem_append_right _ (List.mem_cons_of_mem _ inside))
  | returns state before after call taken value => exact ⟨dropped _ _ _ running, fun _ _ _ _ same => by cases same⟩
  | fails state before after call taken error => exact ⟨dropped _ _ _ running, fun _ _ _ _ same => by cases same⟩
  | faults state before after call taken step next => exact ⟨dropped _ _ _ running, fun _ _ _ _ same => by cases same⟩

-- A call's history has shown something that holds still.
def Shown (shown : σ → Prop) (call : ι) (world : World σ ε α ι) : Prop :=
  ∀ task ∈ world.running, task.call = call → ∀ pair ∈ task.taken, shown pair.2 → shown world.state

theorem step_shown (shown : σ → Prop) (call : ι) (world after : World σ ε α ι) (event : Event σ ε α ι)
    (step : Step prog world event after) (holds : Shown shown call world)
    (kept : ∀ other before rest later, event = .acted other before rest later → shown before → shown later) :
    Shown shown call after := by
  have dropped : ∀ (state : σ) (left right : List (Task σ ε α ι)) (gone : Task σ ε α ι),
    Shown shown call ⟨state, left ++ gone :: right⟩ →
      Shown shown call ⟨state, left ++ right⟩ := fun state left right gone tasks task member =>
    tasks task ((List.Sublist.append_left (List.sublist_cons_self gone right) left).subset member)
  cases step with
  | begins state running other =>
      intro task member own pair inside
      rcases List.mem_cons.mp member with same | more
      · rw [same] at inside
        exact absurd inside List.not_mem_nil
      · exact holds task more own pair inside
  | acts state before after other taken step next =>
      intro task member own pair inside yes
      have stays := kept other state _ _ rfl
      rcases List.mem_append.mp member with earlier | behind
      · exact stays (holds task (List.mem_append_left _ earlier) own pair inside yes)
      · rcases List.mem_cons.mp behind with same | more
        · rw [same] at own inside
          rcases List.mem_append.mp inside with older | newest
          · exact stays (holds ⟨other, taken, .act step next⟩ (List.mem_append_right _ List.mem_cons_self) own pair older yes)
          · rw [List.mem_singleton.mp newest] at yes
            exact yes
        · exact stays (holds task (List.mem_append_right _ (List.mem_cons_of_mem _ more)) own pair inside yes)
  | returns state before after other taken value => exact dropped _ _ _ _ holds
  | fails state before after other taken error => exact dropped _ _ _ _ holds
  | faults state before after other taken step next => exact dropped _ _ _ _ holds

end Runs

end Schedule
