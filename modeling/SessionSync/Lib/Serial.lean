import SessionSync.Lib.Actions

set_option autoImplicit false

namespace Schedule

variable {σ ε α ι : Type}

-- A run whose steps all meet a condition.
inductive Within (prog : ι → Prog σ ε α) (fine : World σ ε α ι → Event σ ε α ι → World σ ε α ι → Prop) :
    World σ ε α ι → List (Event σ ε α ι) → World σ ε α ι → Prop where
  | nil (world : World σ ε α ι) : Within prog fine world [] world
  | cons (world mid last : World σ ε α ι) (event : Event σ ε α ι) (events : List (Event σ ε α ι)) (first : Step prog world event mid)
      (meets : fine world event mid) (rest : Within prog fine mid events last) : Within prog fine world (event :: events) last

-- At most one of the calls in progress has acted.
def Apart (tasks : List (Task σ ε α ι)) : Prop := tasks.Pairwise fun one other => one.taken = [] ∨ other.taken = []

-- Actions that follow one another from a state to another.
def Path : σ → List (σ × σ) → σ → Prop
  | state, [], last => last = state
  | state, (before, after) :: rest, last => before = state ∧ Path after rest last

theorem path_nil (state last : σ) : Path state [] last ↔ last = state := by rw [Path]

theorem path_snoc (state middle last : σ) (taken : List (σ × σ)) (path : Path state taken middle) :
    Path state (taken ++ [(middle, last)]) last := by
  induction taken generalizing state with
  | nil =>
      rw [path_nil] at path
      exact ⟨path, (path_nil last last).mpr rfl⟩
  | cons pair taken ih => exact ⟨path.1, ih _ path.2⟩

-- What a call has done by itself is what an undisturbed run does.
theorem path_exec (prog rest : Prog σ ε α) (state last : σ) (taken : List (σ × σ)) (path : Path state taken last)
    (left : After prog taken rest) : prog.exec state = rest.exec last := by
  induction taken generalizing prog state with
  | nil =>
      rw [path_nil] at path
      rw [after_nil] at left
      rw [path, left]
  | cons pair taken ih =>
      cases prog with
      | ret value => exact left.elim
      | fail error => exact left.elim
      | act step next =>
          obtain ⟨before, after⟩ := pair
          obtain ⟨rfl, path⟩ := path
          obtain ⟨rfl, left⟩ := left
          exact ih (next (step before).1) _ path left

theorem path_append (state last : σ) (one other : List (σ × σ)) :
    Path state (one ++ other) last ↔ ∃ middle, Path state one middle ∧ Path middle other last := by
  induction one generalizing state with
  | nil =>
      simp only [List.nil_append, path_nil, exists_eq_left]
  | cons pair one ih => simp only [List.cons_append, Path, ih, exists_and_left, and_assoc]

-- A sequence stands in its first part, or has come to the second.
theorem after_bind {β : Type} (prog : Prog σ ε β) (next : β → Prog σ ε α) (taken : List (σ × σ)) (rest : Prog σ ε α)
    (left : After (prog >>= next) taken rest) :
    (∃ inner, After prog taken inner ∧ (∀ value, inner ≠ .ret value) ∧ rest = inner >>= next) ∨
      ∃ one other value, taken = one ++ other ∧ After prog one (.ret value) ∧ After (next value) other rest := by
  induction taken generalizing prog with
  | nil =>
      rw [after_nil] at left
      cases prog with
      | ret value => exact .inr ⟨[], [], value, rfl, (after_nil _ _).mpr rfl, (after_nil _ _).mpr left⟩
      | fail error => exact .inl ⟨.fail error, (after_nil _ _).mpr rfl, (fun _ same => by cases same), left⟩
      | act step rest_ => exact .inl ⟨.act step rest_, (after_nil _ _).mpr rfl, (fun _ same => by cases same), left⟩
  | cons pair taken ih =>
      cases prog with
      | ret value => exact .inr ⟨[], pair :: taken, value, rfl, (after_nil _ _).mpr rfl, left⟩
      | fail error => exact left.elim
      | act step rest_ =>
          obtain ⟨ends, left⟩ := left
          rcases ih _ left with ⟨inner, path, open_, same⟩ | ⟨one, other, value, split, path, later⟩
          · exact .inl ⟨inner, ⟨ends, path⟩, open_, same⟩
          · exact .inr ⟨pair :: one, other, value, by rw [split, List.cons_append], ⟨ends, path⟩, later⟩

theorem after_append (whole middle rest : Prog σ ε α) (one other : List (σ × σ)) (first : After whole one middle)
    (later : After middle other rest) : After whole (one ++ other) rest := by
  induction one generalizing whole with
  | nil =>
      rw [after_nil] at first
      exact first ▸ later
  | cons pair one ih =>
      cases whole with
      | ret value => exact first.elim
      | fail error => exact first.elim
      | act step next => exact ⟨first.1, ih _ first.2⟩

theorem bind_open {β : Type} (inner : Prog σ ε β) (next : β → Prog σ ε α) (open_ : ∀ value, inner ≠ .ret value) :
    ∀ value, (inner >>= next) ≠ .ret value := by
  intro value same
  cases inner with
  | ret other => exact open_ other rfl
  | fail error => cases same
  | act step rest => cases same

theorem within_mono (prog : ι → Prog σ ε α) (strong weak : World σ ε α ι → Event σ ε α ι → World σ ε α ι → Prop)
    (world last : World σ ε α ι) (events : List (Event σ ε α ι)) (run : Within prog strong world events last)
    (implies : ∀ before event after, strong before event after → weak before event after) : Within prog weak world events last := by
  induction run with
  | nil world => exact .nil world
  | cons world mid last event events first meets rest ih => exact .cons world mid last event events first (implies _ _ _ meets) ih

theorem within_append (prog : ι → Prog σ ε α) (fine : World σ ε α ι → Event σ ε α ι → World σ ε α ι → Prop)
    (one other : List (Event σ ε α ι)) (world mid last : World σ ε α ι) (begins : Within prog fine world one mid)
    (ends : Within prog fine mid other last) : Within prog fine world (one ++ other) last := by
  induction begins with
  | nil world => exact ends
  | cons world between mid event events first meets rest ih => exact .cons world between last event _ first meets (ih ends)

-- A condition on what is left running, met by steps that take an action or return.
def Calm (size : Nat) (_world : World σ ε α ι) (event : Event σ ε α ι) (after : World σ ε α ι) : Prop :=
  after.running.length ≤ size ∧ ∀ call taken, event ≠ .failed call taken

def Event.Acts : Event σ ε α ι → Prop
  | .acted _ _ _ _ => True
  | .began _ | .returned _ _ _ | .failed _ _ => False

-- The first part of a call, run without others in between.
theorem within_first {β : Type} (prog : ι → Prog σ ε α) (first : Prog σ ε β) (next : β → Prog σ ε α) (state last : σ) (value : β)
    (earlier later : List (Task σ ε α ι)) (call : ι) (taken : List (σ × σ)) (ends : first.exec state = (.ok value, last)) :
    ∃ acts more, Within prog (Calm (earlier.length + later.length + 1)) ⟨state,
      earlier ++ ⟨call, taken, first >>= next⟩ :: later⟩ acts
      ⟨last, earlier ++ ⟨call, taken ++ more, next value⟩ :: later⟩ ∧ (∀ event ∈ acts, event.Acts) ∧
      Path state more last ∧ After (first >>= next) more (next value) := by
  induction first generalizing state taken with
  | ret own =>
      cases ends
      refine ⟨[], [], ?_, List.forall_mem_nil _, (path_nil _ _).mpr rfl, (after_nil _ _).mpr rfl⟩
      rw [List.append_nil]
      exact .nil _
  | fail error => cases ends
  | act step rest ih =>
      obtain ⟨acts, more, run, all, path, left⟩ := ih (step state).1 (step state).2 (taken ++ [(state, (step state).2)]) ends
      refine ⟨.acted call state (rest (step state).1 >>= next) (step state).2 :: acts, (state, (step state).2) :: more, ?_,
        List.forall_mem_cons.mpr ⟨trivial, all⟩, ⟨rfl, path⟩, rfl, left⟩
      rw [List.append_assoc, List.singleton_append] at run
      refine .cons _ _ _ _ _ (.acts state earlier later call taken step fun answer => rest answer >>= next)
        ⟨?_, fun _ _ same => by cases same⟩ run
      simp only [List.length_append, List.length_cons]
      omega

-- A call run to its end without others in between.
theorem within_alone (prog : ι → Prog σ ε α) (rest : Prog σ ε α) (state last : σ) (value : α) (earlier later : List (Task σ ε α ι))
    (call : ι) (taken : List (σ × σ)) (ends : rest.exec state = (.ok value, last)) :
    ∃ acts all, Within prog (Calm (earlier.length + later.length + 1)) ⟨state, earlier ++ ⟨call, taken, rest⟩ :: later⟩
      (acts ++ [.returned call all value]) ⟨last, earlier ++ later⟩ ∧ ∀ event ∈ acts, event.Acts := by
  have whole : rest >>= Prog.ret = rest := by
    clear ends
    induction rest with
    | ret own => rfl
    | fail error => rfl
    | act step next ih => exact congrArg (Prog.act step) (funext fun answer => ih answer)
  obtain ⟨acts, more, run, all, _⟩ := within_first prog rest .ret state last value earlier later call taken ends
  rw [whole] at run
  refine ⟨acts, taken ++ more, within_append prog _ acts _ _ _ _ run ?_, all⟩
  refine .cons _ _ _ _ _ (.returns last earlier later call (taken ++ more) value) ⟨?_, fun _ _ same => by cases same⟩ (.nil _)
  rw [List.length_append]
  exact Nat.le_succ _

theorem within_run (prog : ι → Prog σ ε α) (fine : World σ ε α ι → Event σ ε α ι → World σ ε α ι → Prop) (world last : World σ ε α ι)
    (events : List (Event σ ε α ι)) (run : Within prog fine world events last) : Run prog world events last := by
  induction run with
  | nil world => exact .nil world
  | cons world mid last event events first meets rest ih => exact .cons world mid last event events first ih

section Serial

variable (prog : ι → Prog σ ε α) (effect : List (σ × σ) → Bool)

def Event.counts : Event σ ε α ι → Option ι
  | .returned call _ _ => some call
  | .failed call taken => if effect taken then some call else none
  | .began _ | .acted _ _ _ _ => none

-- The calls that came to a value, and the ones that had their effect before they stopped.
def effective (events : List (Event σ ε α ι)) : List ι := events.filterMap (Event.counts effect)

-- Since `base` at most one call has acted, and what it did led here.
structure Since (base : σ) (world : World σ ε α ι) : Prop where
  apart : Apart world.running
  fitting : Fitting prog world.running
  quiet : (∀ task ∈ world.running, task.taken = []) → world.state = base
  path : ∀ task ∈ world.running, task.taken ≠ [] → Path base task.taken world.state

theorem effective_failed (call : ι) (taken : List (σ × σ)) :
    effective effect [(.failed call taken : Event σ ε α ι)] = if effect taken then [call] else [] := by
  unfold effective
  by_cases counts : effect taken = true
  · have one : Event.counts effect (.failed call taken : Event σ ε α ι) = some call := if_pos counts
    rw [List.filterMap_cons_some one, List.filterMap_nil, if_pos counts]
  · have none_ : Event.counts effect (.failed call taken : Event σ ε α ι) = none := if_neg counts
    rw [List.filterMap_cons_none none_, List.filterMap_nil, if_neg counts]

theorem effective_acts (events : List (Event σ ε α ι)) (acts : ∀ event ∈ events, event.Acts) : effective effect events = [] := by
  rw [effective, List.filterMap_eq_nil_iff]
  intro event member
  have own := acts event member
  cases event with
  | acted call before rest after => rfl
  | began call => exact own.elim
  | returned call taken value => exact own.elim
  | failed call taken => exact own.elim

theorem effective_began (call : ι) (events : List (Event σ ε α ι)) :
    effective effect (.began call :: events) = effective effect events := List.filterMap_cons_none rfl

theorem effective_append (one other : List (Event σ ε α ι)) :
    effective effect (one ++ other) = effective effect one ++ effective effect other := List.filterMap_append

variable (stops : ι → List (σ × σ) → Prop)

-- Calls do not overlap, and one that fails stops where it may.
def Serially (_world : World σ ε α ι) (event : Event σ ε α ι) (after : World σ ε α ι) : Prop :=
  Apart after.running ∧ ∀ call taken, event = .failed call taken → stops call taken

variable (holds : List ι → σ → Prop)

-- What calls do one at a time.
structure Solo : Prop where
  idle : effect [] = false
  returned : ∀ call applied base taken last value, holds applied base → Path base taken last →
    After (prog call) taken (.ret value) → holds (applied ++ [call]) last
  failed : ∀ call applied base taken last rest, holds applied base → Path base taken last → After (prog call) taken rest →
    (∀ value, rest ≠ .ret value) → stops call taken → holds (applied ++ if effect taken then [call] else []) last

variable {prog effect stops holds} (solo : Solo prog effect stops holds)

theorem apart_others (before after : List (Task σ ε α ι)) (task : Task σ ε α ι) (apart : Apart (before ++ task :: after))
    (active : task.taken ≠ []) : ∀ other ∈ before ++ after, other.taken = [] := by
  obtain ⟨_, right, across⟩ := List.pairwise_append.mp apart
  intro other member
  rcases List.mem_append.mp member with earlier | later
  · exact (across other earlier task List.mem_cons_self).resolve_right active
  · exact ((List.pairwise_cons.mp right).1 other later).resolve_left active

theorem since_drop (base state : σ) (before after : List (Task σ ε α ι)) (task : Task σ ε α ι)
    (since : Since prog base ⟨state, before ++ task :: after⟩) (idle : task.taken = []) :
    Since prog base ⟨state, before ++ after⟩ := by
  have smaller : (before ++ after).Sublist (before ++ task :: after) := List.Sublist.append_left (List.sublist_cons_self _ _) before
  refine ⟨since.apart.sublist smaller, fun other member => since.fitting other (smaller.subset member), fun quiet => since.quiet ?_,
    fun other member => since.path other (smaller.subset member)⟩
  intro other member
  rcases List.mem_append.mp member with earlier | later
  · exact quiet other (List.mem_append_left _ earlier)
  · rcases List.mem_cons.mp later with rfl | behind
    · exact idle
    · exact quiet other (List.mem_append_right _ behind)

-- A call that ends leaves the others idle.
theorem since_ended (base state : σ) (before after : List (Task σ ε α ι)) (task : Task σ ε α ι)
    (since : Since prog base ⟨state, before ++ task :: after⟩) (active : task.taken ≠ []) :
    Since prog state ⟨state, before ++ after⟩ := by
  have idle := apart_others before after task since.apart active
  have smaller : (before ++ after).Sublist (before ++ task :: after) := List.Sublist.append_left (List.sublist_cons_self _ _) before
  exact ⟨since.apart.sublist smaller, fun other member => since.fitting other (smaller.subset member), fun _ => rfl,
    fun other member acted => absurd (idle other member) acted⟩

include solo

theorem stopped_step (base state : σ) (before later : List (Task σ ε α ι)) (call : ι) (taken : List (σ × σ)) (rest : Prog σ ε α)
    (applied : List ι) (since : Since prog base ⟨state, before ++ ⟨call, taken, rest⟩ :: later⟩) (so : holds applied base)
    (open_ : ∀ value, rest ≠ .ret value) (stopped : stops call taken) :
    ∃ next, Since prog next ⟨state, before ++ later⟩ ∧ holds (applied ++ if effect taken then [call] else []) next := by
  have left : After (prog call) taken rest := since.fitting ⟨call, taken, rest⟩ (List.mem_append_right _ List.mem_cons_self)
  by_cases idle : taken = []
  · subst idle
    rw [solo.idle, if_neg Bool.false_ne_true, List.append_nil]
    exact ⟨base, since_drop base state before later _ since rfl, so⟩
  · have path := since.path ⟨call, taken, rest⟩ (List.mem_append_right _ List.mem_cons_self) idle
    exact ⟨state, since_ended base state before later _ since idle,
      solo.failed call applied base taken state rest so path left open_ stopped⟩

theorem serial_step (world after : World σ ε α ι) (event : Event σ ε α ι) (step : Step prog world event after)
    (fine : Serially stops world event after) (base : σ) (applied : List ι) (since : Since prog base world)
    (so : holds applied base) :
    ∃ next, Since prog next after ∧ holds (applied ++ effective effect [event]) next := by
  obtain ⟨fits, fitting⟩ := step_fits world after event step since.fitting
  cases step with
  | begins state running call =>
      refine ⟨base, ⟨fine.1, fitting, fun quiet => ?_, fun task member acted => ?_⟩, ?_⟩
      · exact since.quiet fun task member => quiet task (List.mem_cons_of_mem _ member)
      · rcases List.mem_cons.mp member with rfl | inside
        · exact absurd rfl acted
        · exact since.path task inside acted
      · rw [effective, List.filterMap_cons_none rfl, List.filterMap_nil, List.append_nil]
        exact so
  | acts state before later call taken step next =>
      have path : Path base taken state := by
        by_cases active : taken = []
        · subst active
          -- No other call has acted either: two would have acted now.
          have others := apart_others before later _ fine.1 (List.append_ne_nil_of_right_ne_nil _ (List.cons_ne_nil _ _))
          refine (path_nil _ _).mpr (since.quiet fun task member => ?_)
          rcases List.mem_append.mp member with earlier | rest
          · exact others task (List.mem_append_left _ earlier)
          · rcases List.mem_cons.mp rest with rfl | behind
            · rfl
            · exact others task (List.mem_append_right _ behind)
        · exact since.path ⟨call, taken, _⟩ (List.mem_append_right _ List.mem_cons_self) active
      have others := apart_others before later _ fine.1 (List.append_ne_nil_of_right_ne_nil _ (List.cons_ne_nil _ _))
      refine ⟨base, ⟨fine.1, fitting, fun quiet => ?_, fun task member acted => ?_⟩, ?_⟩
      · exact absurd (quiet _ (List.mem_append_right _ List.mem_cons_self))
          (List.append_ne_nil_of_right_ne_nil _ (List.cons_ne_nil _ _))
      · rcases List.mem_append.mp member with earlier | rest
        · exact absurd (others task (List.mem_append_left _ earlier)) acted
        · rcases List.mem_cons.mp rest with rfl | behind
          · exact path_snoc base state _ taken path
          · exact absurd (others task (List.mem_append_right _ behind)) acted
      · rw [effective, List.filterMap_cons_none rfl, List.filterMap_nil, List.append_nil]
        exact so
  | returns state before later call taken value =>
      have left : After (prog call) taken (.ret value) := fits
      rw [show effective effect [(.returned call taken value : Event σ ε α ι)] = [call] from rfl]
      by_cases idle : taken = []
      · subst idle
        exact ⟨base, since_drop base state before later _ since rfl,
          solo.returned call applied base [] base value so ((path_nil _ _).mpr rfl) left⟩
      · have path := since.path ⟨call, taken, _⟩ (List.mem_append_right _ List.mem_cons_self) idle
        exact ⟨state, since_ended base state before later _ since idle,
          solo.returned call applied base taken state value so path left⟩
  | fails state before later call taken error =>
      rw [effective_failed]
      exact stopped_step solo base state before later call taken _ applied since so (fun value same => by cases same)
        (fine.2 call taken rfl)
  | faults state before later call taken step next =>
      rw [effective_failed]
      exact stopped_step solo base state before later call taken _ applied since so (fun value same => by cases same)
        (fine.2 call taken rfl)

theorem serial_run (world last : World σ ε α ι) (events : List (Event σ ε α ι)) (run : Within prog (Serially stops) world events last)
    (base : σ) (applied : List ι) (since : Since prog base world) (so : holds applied base) :
    ∃ next, Since prog next last ∧ holds (applied ++ effective effect events) next := by
  induction run generalizing base applied with
  | nil world => exact ⟨base, since, by rwa [effective, List.filterMap_nil, List.append_nil]⟩
  | cons world mid last event events first meets rest ih =>
      obtain ⟨next, then_, now⟩ := serial_step solo world mid event first meets base applied since so
      obtain ⟨final, ends, holds_⟩ := ih next _ then_ now
      refine ⟨final, ends, ?_⟩
      rwa [List.append_assoc, effective, effective, ← List.filterMap_append, List.singleton_append] at holds_

end Serial

end Schedule
