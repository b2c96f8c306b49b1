import SessionSync.Config.Store

set_option autoImplicit false

namespace SessionSync.Config

open SessionSync.Core Checked

abbrev Taken := List (ConfigState × ConfigState)

-- What a call's own actions did to the file.
def removed (taken : Taken) : Bool := taken.any fun pair => pair.1.file.isSome && pair.2.file.isNone

def replaced (taken : Taken) : Bool := taken.any fun pair => pair.1.file.isNone && pair.2.file.isSome

def KeepsFile (state after : ConfigState) : Prop := after.file = state.file

theorem untouched_flags (taken : Taken) (keeps : ∀ pair ∈ taken, KeepsFile pair.1 pair.2) :
    removed taken = false ∧ replaced taken = false := by
  have same : ∀ pair ∈ taken, pair.2.file = pair.1.file := keeps
  constructor
  · apply List.any_eq_false.mpr
    intro pair member
    rw [same pair member]
    cases pair.1.file <;> exact Bool.false_ne_true
  · apply List.any_eq_false.mpr
    intro pair member
    rw [same pair member]
    cases pair.1.file <;> exact Bool.false_ne_true

theorem path_keeps (state last : ConfigState) (taken : Taken) (path : Schedule.Path state taken last)
    (keeps : ∀ pair ∈ taken, KeepsFile pair.1 pair.2) : last.file = state.file := by
  induction taken generalizing state with
  | nil => rw [(Schedule.path_nil _ _).mp path]
  | cons pair taken ih =>
      obtain ⟨starts, path⟩ := path
      have own : pair.2.file = pair.1.file := keeps pair List.mem_cons_self
      rw [ih pair.2 path fun other member => keeps other (List.mem_cons_of_mem _ member), own, starts]

-- A file that was not there and is there now was put in place.
theorem path_replaced (state last : ConfigState) (taken : Taken) (path : Schedule.Path state taken last) (away : state.file = none)
    (there : last.file.isSome = true) : replaced taken = true := by
  induction taken generalizing state with
  | nil =>
      rw [(Schedule.path_nil _ _).mp path, away] at there
      cases there
  | cons pair taken ih =>
      obtain ⟨starts, path⟩ := path
      by_cases placed : pair.2.file.isSome = true
      · exact List.any_eq_true.mpr ⟨pair, List.mem_cons_self, by rw [starts, away, placed]; rfl⟩
      · rw [replaced, List.any_cons, Bool.or_eq_true]
        exact .inr (ih pair.2 path (Option.not_isSome_iff_eq_none.mp placed))

theorem removed_append (one other : Taken) : removed (one ++ other) = (removed one || removed other) := List.any_append

theorem replaced_append (one other : Taken) : replaced (one ++ other) = (replaced one || replaced other) := List.any_append

variable {Document Call Arguments Saved Answer : Type} (store : Store Document Call Arguments Saved Answer)

theorem keeps_refl (state : ConfigState) : KeepsFile state state := rfl

theorem load_keeps (draws : Draws) (operation : Operation) : (load store draws operation).Acts KeepsFile :=
  fun state => ⟨keeps_refl state, Prog.steps_of_except _ _⟩

theorem attempt_ok (draws : Draws) (operation : Operation) (name : String) (run : ConfigState → Except ConfigError ConfigState)
    (state after : ConfigState) (value : Unit) :
    attempt draws operation name run state = .ok (value, after) ↔ draws.refused operation = false ∧ run state = .ok after := by
  simp only [attempt, bind_ok, ensure_ok, pure_ok, Prod.mk.injEq, exists_const, true_and, exists_eq_right]

theorem operate_keeps (draws : Draws) (operation : Operation) (name : String) (run : ConfigState → Except ConfigError ConfigState)
    (keeps : ∀ state after, run state = .ok after → KeepsFile state after) : (operate draws operation name run).Acts KeepsFile := by
  apply Prog.acts_transact _ keeps_refl
  intro state value after ran
  exact keeps state after (((attempt_ok draws operation name run state after value).mp ran).2)

theorem create_keeps (name : Uuid) (state after : ConfigState) (run : createTemporary name state = .ok after) :
    KeepsFile state after := by
  simp only [createTemporary, bind_ok] at run
  obtain ⟨_, _, done⟩ := run
  cases done
  rfl

theorem prepare_keeps (call : Call) (draws : Draws) : (prepare store call draws).Acts KeepsFile := by
  have idles : ∀ state after : ConfigState, (Except.ok state : Except ConfigError ConfigState) = .ok after →
    KeepsFile state after := by
    intro state after same
    cases same
    rfl
  apply Prog.acts_bind _ _ (Prog.steps_of_except _ _)
  intro _
  apply Prog.acts_bind _ _ (load_keeps store draws .load)
  intro document
  apply Prog.acts_bind _ _ (Prog.steps_of_except _ _)
  intro changed
  apply Prog.acts_bind _ _ (Prog.steps_of_except _ _)
  intro _
  apply Prog.acts_bind _ _ (operate_keeps draws .createDirectory _ _ idles)
  intro _
  apply Prog.acts_bind _ _ (operate_keeps draws .createTemporary _ _ (create_keeps draws.temporary))
  intro _
  apply Prog.acts_bind _ _ (operate_keeps draws .write _ _ fun state after run => by cases run; rfl)
  intro _
  apply Prog.acts_bind _ _ (operate_keeps draws .sync _ _ idles)
  intro _
  exact Prog.acts_bind _ _ (Prog.acts_query _ keeps_refl) fun _ => trivial

theorem finish_keeps (draws : Draws) (saved : Saved) : (finish store draws saved).Acts KeepsFile := by
  unfold finish
  cases store.answer saved with
  | inl answer => trivial
  | inr view => exact Prog.acts_map _ _ (load_keeps store draws .reload)

theorem exec_operate_ok (draws : Draws) (operation : Operation) (name : String) (run : ConfigState → Except ConfigError ConfigState)
    (state after : ConfigState) (value : Unit) :
    (operate draws operation name run).exec state = (.ok value, after) ↔ draws.refused operation = false ∧ run state = .ok after := by
  rw [operate, Prog.exec_transact_ok, attempt_ok]

theorem exec_load_ok (draws : Draws) (operation : Operation) (state after : ConfigState) (document : Document) :
    (load store draws operation).exec state = (.ok document, after) ↔
      draws.refused operation = false ∧ loaded store state.file = .ok document ∧ state = after := by
  rw [load, Prog.exec_read]
  simp only [Prod.mk.injEq, bind_ok, ensure_ok, exists_const, and_assoc]

-- What stands ready once a call may touch the file.
theorem prepare_ready (call : Call) (draws : Draws) (base middle : ConfigState) (ready : Ready Saved Document)
    (run : (prepare store call draws).exec base = (.ok ready, middle)) :
    perform store call base.file = .ok (store.encode ready.document) ∧ middle.file = base.file ∧
      middle.temporaries[draws.temporary]? = some (store.encode ready.document) ∧ ready.present = base.file.isSome := by
  simp only [prepare, Prog.exec_bind_ok, Prog.exec_of_except, Prod.mk.injEq, exec_operate_ok, exec_load_ok] at run
  obtain ⟨_, one, ⟨checked, first⟩, document, two, ⟨_, read, second⟩, changed, three, ⟨changes, third⟩, run⟩ := run
  obtain ⟨_, four, ⟨valid, fourth⟩, _, _, ⟨_, same⟩, _, created, ⟨_, creates⟩, _, written, ⟨_, writes⟩, run⟩ := run
  obtain ⟨_, _, ⟨_, synced⟩, _, _, asked, ends⟩ := run
  subst first
  subst second
  subst third
  subst fourth
  cases same
  cases writes
  cases synced
  cases asked
  cases ends
  have file : created.file = base.file := create_keeps draws.temporary base created creates
  refine ⟨?_, file, (Keyed.lookup_insert _ _ _ _).trans (if_pos rfl), congrArg Option.isSome file⟩
  simp only [perform, bind_ok]
  exact ⟨_, checked, document, read, changed, changes, _, valid, rfl⟩

-- One operation has not been made, or was refused, or has been made.
inductive Operated (run : ConfigState → Except ConfigError ConfigState) (base : ConfigState) :
    Taken → ConfigState → Action Unit → Prop where
  | idle (rest : Action Unit) (open_ : ∀ value, rest ≠ .ret value) : Operated run base [] base rest
  | refused (error : ConfigError) : Operated run base [(base, base)] base (.fail error)
  | made (after : ConfigState) (ran : run base = .ok after) : Operated run base [(base, after)] after (.ret ())

theorem after_ended (outcome : Except ConfigError Unit) (taken : Taken) (rest : Action Unit)
    (left : Schedule.After (Prog.ofExcept outcome) taken rest) : taken = [] ∧ rest = Prog.ofExcept outcome := by
  cases taken with
  | nil => exact ⟨rfl, (Schedule.after_nil _ _).mp left⟩
  | cons pair more =>
      cases outcome with
      | ok value => exact left.elim
      | error error => exact left.elim

theorem operate_after (draws : Draws) (operation : Operation) (name : String) (run : ConfigState → Except ConfigError ConfigState)
    (base last : ConfigState) (taken : Taken) (rest : Action Unit) (path : Schedule.Path base taken last)
    (left : Schedule.After (operate draws operation name run) taken rest) : Operated run base taken last rest := by
  cases taken with
  | nil =>
      obtain rfl := (Schedule.path_nil _ _).mp path
      obtain rfl := (Schedule.after_nil _ _).mp left
      exact .idle _ fun value same => by cases same
  | cons pair more =>
      obtain ⟨before, after⟩ := pair
      obtain ⟨rfl, path⟩ := path
      obtain ⟨rfl, left⟩ := left
      obtain ⟨rfl, rfl⟩ := after_ended _ more rest left
      obtain rfl := (Schedule.path_nil _ _).mp path
      cases outcome : attempt draws operation name run before with
      | error error =>
          simp only [Prog.attemptStep, outcome]
          exact .refused error
      | ok pair =>
          simp only [Prog.attemptStep, outcome]
          exact .made pair.2 ((attempt_ok draws operation name run before pair.2 pair.1).mp outcome).2

-- Where a call that runs by itself can stand.
inductive Stands (call : Call) (base : Option Bytes) (taken : Taken) (last : Option Bytes) (rest : Action Answer) : Prop where
  | untouched (file : last = base) (kept : removed taken = false) (absent : replaced taken = false)
      (open_ : ∀ value, rest ≠ .ret value)
  | window (gone : removed taken = true) (absent : replaced taken = false) (open_ : ∀ value, rest ≠ .ret value)
  | done (bytes : Bytes) (swapped : replaced taken = true) (performed : perform store call base = .ok bytes)
      (file : last = some bytes)

-- The old file is still there.
theorem remove_open (draws : Draws) (present : Bool) (base last : ConfigState) (taken : Taken) (inner : Action Unit)
    (path : Schedule.Path base taken last) (left : Schedule.After (removeOld draws present) taken inner)
    (open_ : ∀ value, inner ≠ .ret value) : last = base ∧ ∀ pair ∈ taken, KeepsFile pair.1 pair.2 := by
  cases present with
  | false =>
      cases taken with
      | nil => exact absurd ((Schedule.after_nil _ _).mp left) (open_ ())
      | cons pair more => exact left.elim
  | true =>
      cases operate_after draws .remove "remove" removeFile base last taken inner path left with
      | idle rest open_ => exact ⟨rfl, List.forall_mem_nil _⟩
      | refused error => exact ⟨rfl, List.forall_mem_singleton.mpr rfl⟩
      | made after ran => exact absurd rfl (open_ ())

-- The old file, if there was one, is gone.
theorem remove_done (draws : Draws) (present : Bool) (base last : ConfigState) (taken : Taken) (value : Unit)
    (there : present = base.file.isSome) (path : Schedule.Path base taken last)
    (left : Schedule.After (removeOld draws present) taken (.ret value)) :
    last.file = none ∧ last.temporaries = base.temporaries ∧ removed taken = base.file.isSome ∧ replaced taken = false := by
  cases present with
  | false =>
      have empty := Option.not_isSome_iff_eq_none.mp (Bool.eq_false_iff.mp there.symm)
      cases taken with
      | nil =>
          obtain rfl := (Schedule.path_nil _ _).mp path
          exact ⟨empty, rfl, there, rfl⟩
      | cons pair more => exact left.elim
  | true =>
      have moved := operate_after draws .remove "remove" removeFile base last taken (.ret value) path left
      cases moved with
      | idle rest open_ => exact absurd rfl (open_ value)
      | made after ran =>
          simp only [removeFile, bind_ok, ensure_ok, pure_ok] at ran
          obtain ⟨_, present, rfl⟩ := ran
          refine ⟨rfl, rfl, ?_, ?_⟩
          · simp only [removed, List.any_cons, List.any_nil, Option.isNone_none, Bool.and_true, Bool.or_false]
          · simp only [replaced, List.any_cons, List.any_nil, Option.isSome_none, Bool.and_false, Bool.or_false]

theorem swap_stands (call : Call) (draws : Draws) (base : Option Bytes) (middle last : ConfigState) (ready : Ready Saved Document)
    (one other : Taken) (rest : Action Answer) (performed : perform store call base = .ok (store.encode ready.document))
    (file : middle.file = base) (written : middle.temporaries[draws.temporary]? = some (store.encode ready.document))
    (present : ready.present = base.isSome) (kept : removed one = false) (absent : replaced one = false)
    (path : Schedule.Path middle other last)
    (left : Schedule.After (do
      removeOld draws ready.present
      operate draws .rename "rename" (renameTemporary draws)
      finish store draws ready.saved) other rest) : Stands store call base (one ++ other) last.file rest := by
  rcases Schedule.after_bind _ _ other rest left with ⟨inner, removes, open_, rfl⟩ | ⟨first, second, _, rfl, removes, left⟩
  · obtain ⟨same, quiet⟩ := remove_open draws ready.present middle last other inner path removes open_
    obtain ⟨keptToo, absentToo⟩ := untouched_flags other quiet
    refine .untouched (by rw [same, file]) ?_ ?_ (Schedule.bind_open inner _ open_)
    · rw [removed_append, kept, keptToo, Bool.or_self]
    · rw [replaced_append, absent, absentToo, Bool.or_self]
  · obtain ⟨gone, begins, path⟩ := (Schedule.path_append _ _ _ _).mp path
    obtain ⟨empty, temporaries, removal, swap⟩ :=
      remove_done draws ready.present middle gone first _ (by rw [present, file]) begins removes
    rw [file] at removal
    rcases Schedule.after_bind _ _ second rest left with ⟨inner, renames, open_, rfl⟩ | ⟨third, fourth, _, rfl, renames, finishes⟩
    · have open_rest := Schedule.bind_open inner (fun _ => finish store draws ready.saved) open_
      have still : last = gone ∧ ∀ pair ∈ second, KeepsFile pair.1 pair.2 := by
        cases operate_after draws .rename "rename" (renameTemporary draws) gone last second inner path renames with
        | idle rest open_ => exact ⟨rfl, List.forall_mem_nil _⟩
        | refused error => exact ⟨rfl, List.forall_mem_singleton.mpr rfl⟩
        | made after ran => exact absurd rfl (open_ ())
      obtain ⟨quiet, quietToo⟩ := untouched_flags second still.2
      have absentAll : replaced (one ++ (first ++ second)) = false := by
        rw [replaced_append, replaced_append, absent, swap, quietToo, Bool.or_self, Bool.or_self]
      have keptAll : removed (one ++ (first ++ second)) = base.isSome := by
        rw [removed_append, removed_append, kept, removal, quiet, Bool.or_false, Bool.false_or]
      cases base with
      | none => exact .untouched (by rw [still.1, empty]) keptAll absentAll open_rest
      | some bytes => exact .window keptAll absentAll open_rest
    · obtain ⟨swapped, renamed, onward⟩ := (Schedule.path_append _ _ _ _).mp path
      have moved := operate_after draws .rename "rename" (renameTemporary draws) gone swapped third _ renamed renames
      cases moved with
      | idle rest open_ => exact absurd rfl (open_ _)
      | made after ran =>
          simp only [renameTemporary, temporaries, bind_ok, found_ok, ensure_ok, pure_ok, written] at ran
          obtain ⟨bytes, same, _, _, rfl⟩ := ran
          cases same
          have file := path_keeps _ last fourth onward (Schedule.after_acts _ _ _ _ (finish_keeps store draws ready.saved) finishes)
          refine .done (store.encode ready.document) ?_ performed file
          simp only [replaced, List.any_append, List.any_cons, empty, Option.isNone_none, Option.isSome_some,
            Bool.and_true, Bool.true_or, Bool.or_true]

theorem call_stands (call : Call) (draws : Draws) (base last : ConfigState) (taken : Taken) (rest : Action Answer)
    (path : Schedule.Path base taken last) (left : Schedule.After (program store (call, draws)) taken rest) :
    Stands store call base.file taken last.file rest := by
  rcases Schedule.after_bind _ _ taken rest left with ⟨inner, prepares, open_, rfl⟩ | ⟨one, other, ready, rfl, prepares, left⟩
  · have keeps := Schedule.after_acts _ _ _ _ (prepare_keeps store call draws) prepares
    obtain ⟨kept, absent⟩ := untouched_flags taken keeps
    exact .untouched (path_keeps base last taken path keeps) kept absent (Schedule.bind_open inner _ open_)
  · obtain ⟨middle, begins, path⟩ := (Schedule.path_append _ _ _ _).mp path
    have keeps := Schedule.after_acts _ _ _ _ (prepare_keeps store call draws) prepares
    obtain ⟨kept, absent⟩ := untouched_flags one keeps
    have ran := Schedule.path_exec _ _ base middle one begins prepares
    obtain ⟨performed, file, written, present⟩ := prepare_ready store call draws base middle ready ran
    refine swap_stands store call draws base.file middle last ready one other rest performed file written present kept
      absent path left

abbrev Event (Call Answer : Type) := Schedule.Event ConfigState ConfigError Answer (Call × Draws)
abbrev World (Call Answer : Type) := Schedule.World ConfigState ConfigError Answer (Call × Draws)

-- A call is not stopped while the file is away, and after it has put its own file in
-- place it does not fail by itself.
def Stops (issued : Call × Draws) (taken : Taken) : Prop :=
  (removed taken = false ∧ replaced taken = false) ∨
    replaced taken = true ∧ ∃ (β : Type) (step : ConfigState → β × ConfigState) (next : β → Action Answer),
      Schedule.After (program store issued) taken (.act step next)

def Replayed (start : Option Bytes) (applied : List (Call × Draws)) (state : ConfigState) : Prop :=
  Replays store start (applied.map Prod.fst) state.file

theorem done_replayed (start : Option Bytes) (applied : List (Call × Draws)) (issued : Call × Draws) (base last : ConfigState)
    (bytes : Bytes) (so : Replayed store start applied base) (performed : perform store issued.1 base.file = .ok bytes)
    (file : last.file = some bytes) : Replayed store start (applied ++ [issued]) last := by
  rw [Replayed, List.map_append, List.map_singleton, file]
  exact .snoc start base.file (applied.map Prod.fst) issued.1 bytes so performed

theorem store_solo (start : Option Bytes) :
    Schedule.Solo (program store) replaced (Stops store) (Replayed store start) where
  idle := rfl
  returned issued applied base taken last value so path left := by
    cases call_stands store issued.1 issued.2 base last taken _ path left with
    | untouched file kept absent open_ => exact absurd rfl (open_ value)
    | window gone absent open_ => exact absurd rfl (open_ value)
    | done bytes swapped performed file => exact done_replayed store start applied issued base last bytes so performed file
  failed issued applied base taken last rest so path left open_ stops := by
    cases call_stands store issued.1 issued.2 base last taken rest path left with
    | untouched file kept absent open_ =>
        rw [absent, if_neg Bool.false_ne_true, List.append_nil, Replayed, file]
        exact so
    | window gone absent open_ =>
        rcases stops with ⟨kept, _⟩ | ⟨swapped, _⟩
        · rw [gone] at kept
          cases kept
        · rw [absent] at swapped
          cases swapped
    | done bytes swapped performed file =>
        rw [swapped, if_pos rfl]
        exact done_replayed store start applied issued base last bytes so performed file

-- The calls in progress that have put their file in place.
def landed (tasks : List (Schedule.Task ConfigState ConfigError Answer (Call × Draws))) : List (Call × Draws) :=
  (tasks.filter fun task => replaced task.taken).map (·.call)

theorem idle_landed (tasks : List (Schedule.Task ConfigState ConfigError Answer (Call × Draws)))
    (idle : ∀ task ∈ tasks, task.taken = []) : landed tasks = [] := by
  rw [landed, List.filter_eq_nil_iff.mpr, List.map_nil]
  intro task member
  rw [idle task member]
  exact Bool.false_ne_true

theorem landed_alone (before after : List (Schedule.Task ConfigState ConfigError Answer (Call × Draws)))
    (task : Schedule.Task ConfigState ConfigError Answer (Call × Draws)) (others : ∀ other ∈ before ++ after, other.taken = []) :
    landed (before ++ task :: after) = if replaced task.taken then [task.call] else [] := by
  have one := idle_landed before fun other member => others other (List.mem_append_left _ member)
  have two := idle_landed after fun other member => others other (List.mem_append_right _ member)
  unfold landed at one two ⊢
  rw [List.filter_append, List.map_append, one, List.nil_append, List.filter_cons]
  by_cases swapped : replaced task.taken = true
  · rw [if_pos swapped, if_pos swapped, List.map_cons, two]
  · rw [if_neg swapped, if_neg swapped, two]

-- Runs of calls that do not overlap.
theorem serial_calls (start last : World Call Answer) (events : List (Event Call Answer)) (fresh : start.running = [])
    (run : Schedule.Within (program store) (Schedule.Serially (Stops store)) start events last)
    (settled : ∀ task ∈ last.running, removed task.taken = true → replaced task.taken = true) :
    Replays store start.state.file ((Schedule.effective replaced events ++ landed last.running).map Prod.fst) last.state.file := by
  have begins : Schedule.Since (program store) start.state start := by
    refine ⟨?_, ?_, fun _ => rfl, ?_⟩
    · rw [fresh]
      exact List.Pairwise.nil
    · rw [fresh]
      exact List.forall_mem_nil _
    · rw [fresh]
      exact List.forall_mem_nil _
  obtain ⟨base, since, so⟩ := Schedule.serial_run (store_solo store start.state.file) start last events run start.state [] begins
    (.nil start.state.file)
  rw [List.nil_append] at so
  by_cases idle : ∀ task ∈ last.running, task.taken = []
  · rw [idle_landed last.running idle, List.append_nil, since.quiet idle]
    exact so
  · simp only [not_forall] at idle
    obtain ⟨task, member, active⟩ := idle
    obtain ⟨before, after, split⟩ := List.append_of_mem member
    have others := Schedule.apart_others before after task (split ▸ since.apart) active
    have stands := call_stands store task.call.1 task.call.2 base last.state task.taken task.rest (since.path task member active)
      (since.fitting task member)
    rw [split, landed_alone before after task others]
    cases stands with
    | untouched file kept absent open_ =>
        rw [absent, if_neg Bool.false_ne_true, List.append_nil, file]
        exact so
    | window gone absent open_ =>
        rw [settled task member gone] at absent
        cases absent
    | done bytes swapped performed file =>
        rw [swapped, if_pos rfl]
        exact done_replayed store _ _ task.call base last.state bytes so performed file

-- A store that has a file keeps one.
theorem replays_stored (first last : Option Bytes) (calls : List Call) (replays : Replays store first calls last)
    (stored : first.isSome = true ∨ calls ≠ []) : last.isSome = true := by
  cases replays with
  | nil => exact stored.resolve_right (fun some_ => some_ rfl)
  | snoc last calls call bytes before performed => rfl

end SessionSync.Config
