import SessionSync.Core.Json
import SessionSync.Lib.Checked
import SessionSync.Lib.Actions

set_option autoImplicit false

namespace SessionSync.Local

-- No access after the last of the device's faults is refused by the system.
abbrev Device (σ α : Type) := Prog (Faulty σ) String α

variable {σ α : Type}

def refusal : String := "the operating system refused the access"

def touch (run : σ → Except String σ) : Device σ Unit := Prog.access refusal fun state => (run state).map fun after => ((), after)

def inspect (look : σ → Except String α) : Device σ α := Prog.access refusal fun state => (look state).map fun value => (value, state)

-- Path::exists never fails.
def probe {ε : Type} (look : σ → α) : Prog (Faulty σ) ε α := Prog.query fun device => look device.state

-- A call whose only effect on what is modelled is that it may fail.
def fallible : Device σ Unit := touch .ok

def createDirAll : Device σ Unit := fallible

def checkCancelled : Device σ Unit := fallible

def removeOld (present : σ → Bool) (remove : σ → σ) : Device σ Unit := do
  let old ← probe present
  if old then touch fun state => .ok (remove state) else pure ()

-- The old file is gone before the new one has its name.
def atomicWriteJson (present : σ → Bool) (remove put : σ → σ) : Device σ Unit := do
  fallible
  removeOld present remove
  touch fun state => .ok (put state)

section Rules

variable {crash : σ → Prop}

abbrev SafeAccess {ε : Type} (crash : σ → Prop) (prog : Prog (Faulty σ) ε α) (post : Except ε α → Faulty σ → Prop)
    (device : Faulty σ) : Prop := prog.Safe (fun device => crash device.state) post device

theorem mapped_ok {ε β : Type} (f : α → β) (result : Except ε α) (value : β) :
    result.map f = .ok value ↔ ∃ found, result = .ok found ∧ f found = value := by
  cases result with
  | error error => exact iff_of_false nofun fun impossible => nomatch impossible.choose_spec.1
  | ok found => simp [Except.map]

theorem mapped_error {ε β : Type} (f : α → β) (result : Except ε α) (error : ε) :
    result.map f = .error error ↔ result = .error error := by
  cases result <;> simp [Except.map]

theorem safe_touch (run : σ → Except String σ) (post : Except String Unit → Faulty σ → Prop) (device : Faulty σ)
    (here : crash device.state)
    (done : ∀ after rest, run device.state = .ok after → (device.faults = [] → rest = []) → crash after ∧ post (.ok ()) ⟨after, rest⟩)
    (fails : ∀ error rest, (device.faults = [] → rest = [] ∧ run device.state = .error error) →
      post (.error error) ⟨device.state, rest⟩) : SafeAccess crash (touch run) post device := by
  apply Prog.safe_access _ _ _ _ here
  · intro value after rest ran quiet
    obtain ⟨found, outcome, same⟩ := (mapped_ok _ _ _).mp ran
    cases same
    exact done after rest outcome quiet
  · intro error rest refused
    refine fails error rest fun quiet => ?_
    obtain ⟨none_, ran⟩ := refused quiet
    exact ⟨none_, (mapped_error _ _ _).mp ran⟩

theorem safe_inspect (look : σ → Except String α) (post : Except String α → Faulty σ → Prop) (device : Faulty σ)
    (here : crash device.state)
    (done : ∀ value rest, look device.state = .ok value → (device.faults = [] → rest = []) → post (.ok value) ⟨device.state, rest⟩)
    (fails : ∀ error rest, (device.faults = [] → rest = [] ∧ look device.state = .error error) →
      post (.error error) ⟨device.state, rest⟩) : SafeAccess crash (inspect look) post device := by
  apply Prog.safe_access _ _ _ _ here
  · intro value after rest ran quiet
    obtain ⟨found, outcome, same⟩ := (mapped_ok _ _ _).mp ran
    cases same
    exact ⟨here, done value rest outcome quiet⟩
  · intro error rest refused
    refine fails error rest fun quiet => ?_
    obtain ⟨none_, ran⟩ := refused quiet
    exact ⟨none_, (mapped_error _ _ _).mp ran⟩

theorem safe_probe {ε β : Type} (look : σ → α) (next : α → Prog (Faulty σ) ε β) (post : Except ε β → Faulty σ → Prop)
    (device : Faulty σ) (here : crash device.state) (later : SafeAccess crash (next (look device.state)) post device) :
    SafeAccess crash (probe look >>= next) post device :=
  Prog.safe_bind _ _ _ _ (Prog.safe_query _ _ _ here later)

theorem safe_done {ε : Type} (value : α) (post : Except ε α → Faulty σ → Prop) (device : Faulty σ) (here : crash device.state)
    (ends : post (.ok value) device) : SafeAccess crash (pure value) post device := ⟨here, ends⟩

theorem safe_result {ε : Type} (result : Except ε α) (post : Except ε α → Faulty σ → Prop) (device : Faulty σ)
    (here : crash device.state) (ends : post result device) : SafeAccess crash (Prog.ofExcept result) post device :=
  Prog.safe_of_except _ _ _ here ends

theorem safe_then {ε β : Type} (prog : Prog (Faulty σ) ε α) (next : α → Prog (Faulty σ) ε β) (first : Except ε α → Faulty σ → Prop)
    (post : Except ε β → Faulty σ → Prop) (device : Faulty σ) (begins : SafeAccess crash prog first device)
    (goes : ∀ value seen, crash seen.state → first (.ok value) seen → SafeAccess crash (next value) post seen)
    (fails : ∀ error seen, crash seen.state → first (.error error) seen → post (.error error) seen) :
    SafeAccess crash (prog >>= next) post device := by
  apply Prog.safe_bind
  refine Prog.safe_mono _ _ _ _ (fun outcome seen here left => ?_) begins
  cases outcome with
  | error error => exact fails error seen here left
  | ok value => exact goes value seen here left

theorem safe_total {ε β : Type} (prog : Prog (Faulty σ) ε α) (next : α → Prog (Faulty σ) ε β) (first : α → Faulty σ → Prop)
    (post : Except ε β → Faulty σ → Prop) (device : Faulty σ) (begins : SafeAccess crash prog (Prog.total first) device)
    (goes : ∀ value seen, crash seen.state → first value seen → SafeAccess crash (next value) post seen) :
    SafeAccess crash (prog >>= next) post device :=
  safe_then prog next _ post device begins goes fun _ _ _ impossible => impossible.elim

theorem safe_tries {ε ε' β : Type} (prog : Prog (Faulty σ) ε α) (next : Except ε α → Prog (Faulty σ) ε' β)
    (first : Except ε α → Faulty σ → Prop) (post : Except ε' β → Faulty σ → Prop) (device : Faulty σ)
    (begins : SafeAccess crash prog first device)
    (goes : ∀ outcome seen, crash seen.state → first outcome seen → SafeAccess crash (next outcome) post seen) :
    SafeAccess crash (prog.attempt >>= next) post device := by
  apply Prog.safe_bind
  apply Prog.safe_attempt
  exact Prog.safe_mono _ _ _ _ (fun outcome seen here left => goes outcome seen here left) begins

theorem safe_weaken {ε : Type} (strong weak : σ → Prop) (imp : ∀ state, strong state → weak state) (prog : Prog (Faulty σ) ε α)
    (post : Except ε α → Faulty σ → Prop) (device : Faulty σ) (safe : SafeAccess strong prog post device) :
    SafeAccess weak prog post device := by
  rw [SafeAccess, Prog.safe_iff] at safe ⊢
  exact ⟨fun seen cut => imp _ (safe.1 seen cut), safe.2⟩

-- A program that only looks keeps whatever holds.
theorem safe_reads {ε : Type} (prog : Prog (Faulty σ) ε α) (post : Except ε α → Faulty σ → Prop)
    (device : Faulty σ) (here : crash device.state) (reads : SafeAccess (fun seen => seen = device.state) prog post device) :
    SafeAccess crash prog (fun outcome seen => seen.state = device.state ∧ post outcome seen) device := by
  rw [SafeAccess, Prog.safe_iff] at reads ⊢
  exact ⟨fun seen cut => reads.1 seen cut ▸ here, reads.1 _ (Prog.cut_exec prog device), reads.2⟩

-- A change, a look and a call without effect, each with what comes after it.
theorem safe_change {β : Type} (run : σ → Except String σ) (next : Unit → Device σ β) (post : Except String β → Faulty σ → Prop)
    (device : Faulty σ) (here : crash device.state)
    (goes : ∀ after faults, run device.state = .ok after → SafeAccess crash (next ()) post ⟨after, faults⟩)
    (fails : ∀ error faults, post (.error error) ⟨device.state, faults⟩) : SafeAccess crash (touch run >>= next) post device := by
  apply Prog.safe_bind
  apply safe_touch _ _ _ here
  · intro after rest ran _
    have safe := goes after rest ran
    exact ⟨Prog.safe_here _ _ (⟨after, rest⟩ : Faulty σ) safe, safe⟩
  · exact fun error rest _ => fails error rest

theorem safe_look {β : Type} (look : σ → Except String α) (next : α → Device σ β) (post : Except String β → Faulty σ → Prop)
    (device : Faulty σ) (here : crash device.state)
    (goes : ∀ value faults, look device.state = .ok value → SafeAccess crash (next value) post ⟨device.state, faults⟩)
    (fails : ∀ error faults, post (.error error) ⟨device.state, faults⟩) : SafeAccess crash (inspect look >>= next) post device := by
  apply Prog.safe_bind
  apply safe_inspect _ _ _ here
  · exact fun value rest read _ => goes value rest read
  · exact fun error rest _ => fails error rest

theorem safe_pause {β : Type} (next : Unit → Device σ β) (post : Except String β → Faulty σ → Prop) (device : Faulty σ)
    (here : crash device.state) (goes : ∀ faults, SafeAccess crash (next ()) post ⟨device.state, faults⟩)
    (fails : ∀ error faults, post (.error error) ⟨device.state, faults⟩) : SafeAccess crash (fallible >>= next) post device := by
  apply safe_change _ _ _ _ here
  · intro after faults ran
    cases ran
    exact goes faults
  · exact fails

-- A check in front of the rest.
theorem safe_check {ε β : Type} (result : Except ε α) (next : α → Prog (Faulty σ) ε β) (post : Except ε β → Faulty σ → Prop)
    (device : Faulty σ) (here : crash device.state) (passes : ∀ value, result = .ok value → SafeAccess crash (next value) post device)
    (fails : ∀ error, result = .error error → post (.error error) device) :
    SafeAccess crash (Prog.ofExcept result >>= next) post device := by
  apply Prog.safe_bind
  apply safe_result _ _ _ here
  cases result with
  | error error => exact fails error rfl
  | ok value => exact passes value rfl

-- A call without effect is refused or is done.
theorem safe_idle (device : Faulty σ) (here : crash device.state) :
    SafeAccess crash fallible (fun outcome seen => seen.state = device.state ∧
      (device.faults = [] → seen.faults = [] ∧ outcome = .ok ())) device := by
  apply safe_touch _ _ _ here
  · intro after rest ran quiet
    cases ran
    exact ⟨here, rfl, fun none_ => ⟨quiet none_, rfl⟩⟩
  · exact fun error rest refused => ⟨rfl, fun none_ => absurd (refused none_).2 nofun⟩

theorem safe_remove_old (present : σ → Bool) (remove : σ → σ) (device : Faulty σ) (here : crash device.state)
    (gone : crash (remove device.state)) :
    SafeAccess crash (removeOld present remove) (fun outcome seen => (device.faults = [] → seen.faults = [] ∧ outcome = .ok ()) ∧
      (seen.state = device.state ∨ seen.state = remove device.state)) device := by
  apply safe_probe _ _ _ _ here
  by_cases old : present device.state = true
  · rw [if_pos old]
    apply safe_touch _ _ _ here
    · intro after rest ran quiet
      cases ran
      exact ⟨gone, fun none_ => ⟨quiet none_, rfl⟩, .inr rfl⟩
    · exact fun error rest refused => ⟨fun none_ => absurd (refused none_).2 nofun, .inl rfl⟩
  · rw [if_neg old]
    exact safe_done _ _ _ here ⟨fun none_ => ⟨none_, rfl⟩, .inl rfl⟩

-- A new file in the place of the old one.
theorem safe_atomic (present : σ → Bool) (remove put : σ → σ) (device : Faulty σ)
    (again : put (remove device.state) = put device.state) (here : crash device.state) (gone : crash (remove device.state))
    (done : crash (put device.state)) :
    SafeAccess crash (atomicWriteJson present remove put) (fun outcome seen =>
      (device.faults = [] → seen.faults = [] ∧ outcome = .ok ()) ∧ (outcome = .ok () → seen.state = put device.state) ∧
        (outcome ≠ .ok () → seen.state = device.state ∨ seen.state = remove device.state)) device := by
  apply safe_then _ _ _ _ _ (safe_idle device here)
  rotate_left
  · exact fun error seen _ left => ⟨fun none_ => absurd (left.2 none_).2 nofun, nofun, fun _ => .inl left.1⟩
  rintro _ ⟨state, faults⟩ _ ⟨rfl, calm⟩
  apply safe_then _ _ _ _ _ (safe_remove_old present remove ⟨_, faults⟩ here gone)
  rotate_left
  · exact fun error seen _ left => ⟨fun none_ => absurd (left.1 (calm none_).1).2 nofun, nofun, fun _ => left.2⟩
  rintro _ ⟨state, rest⟩ kept ⟨quiet, place⟩
  apply safe_touch _ _ _ kept
  · intro after last ran silent
    cases ran
    have same : put state = put device.state := by
      rcases place with same | same
      · exact congrArg put same
      · exact (congrArg put same).trans again
    exact ⟨same ▸ done, fun none_ => ⟨silent (quiet (calm none_).1).1, rfl⟩, fun _ => same, fun failed => absurd rfl failed⟩
  · exact fun error last refused =>
      ⟨fun none_ => absurd (refused (quiet (calm none_).1).1).2 nofun, nofun, fun _ => place⟩

-- Creating a directory changes nothing that is modelled.
theorem create_dir_still (device : Faulty σ) :
    SafeAccess (fun seen => seen = device.state) createDirAll (fun _ _ => True) device := by
  have idle : SafeAccess (fun seen => seen = device.state) fallible _ device := safe_idle device rfl
  exact Prog.safe_mono _ _ _ _ (fun _ _ _ _ => trivial) idle

end Rules

-- Every access moves the state along `allowed`, whether it is refused or not.
abbrev Moves {ε : Type} (allowed : σ → σ → Prop) (prog : Prog (Faulty σ) ε α) : Prop :=
  prog.Acts fun device after => allowed device.state after.state

section Moves

variable {allowed : σ → σ → Prop} (refl : ∀ state, allowed state state)

include refl

theorem moves_access (run : σ → Except String (α × σ))
    (fits : ∀ state value after, run state = .ok (value, after) → allowed state after) :
    Moves allowed (Prog.access refusal run) := by
  have settles : ∀ state rest, allowed state (Prog.settle run state rest).2.state := by
    intro state rest
    unfold Prog.settle
    cases outcome : run state with
    | error error => exact refl state
    | ok pair => exact fits state pair.1 pair.2 outcome
  rintro ⟨state, faults⟩
  refine ⟨?_, Prog.steps_of_except _ _⟩
  cases faults with
  | nil => exact settles state []
  | cons fault rest =>
      cases fault with
      | true => exact refl state
      | false => exact settles state rest

theorem moves_touch (run : σ → Except String σ) (fits : ∀ state after, run state = .ok after → allowed state after) :
    Moves allowed (touch run) := by
  apply moves_access refl
  intro state value after ran
  obtain ⟨found, outcome, same⟩ := (mapped_ok _ _ _).mp ran
  cases same
  exact fits state after outcome

theorem moves_inspect (look : σ → Except String α) : Moves allowed (inspect look) := by
  apply moves_access refl
  intro state value after ran
  obtain ⟨found, outcome, same⟩ := (mapped_ok _ _ _).mp ran
  cases same
  exact refl state

theorem moves_fallible : Moves allowed (fallible : Device σ Unit) :=
  moves_touch refl _ fun state after same => by
    cases same
    exact refl state

theorem moves_probe {ε : Type} (look : σ → α) : Moves allowed (probe look : Prog (Faulty σ) ε α) :=
  Prog.acts_query _ fun device => refl device.state

theorem moves_atomic (present : σ → Bool) (remove put : σ → σ) (removes : ∀ state, allowed state (remove state))
    (puts : ∀ state, allowed state (put state)) : Moves allowed (atomicWriteJson present remove put) := by
  have touches : ∀ change : σ → σ, (∀ state, allowed state (change state)) →
    Moves allowed (touch fun state => .ok (change state)) := by
    intro change fits
    apply moves_touch refl
    intro state after same
    cases same
    exact fits state
  apply Prog.acts_bind _ _ (moves_fallible refl)
  intro _
  apply Prog.acts_bind
  · apply Prog.acts_bind _ _ (moves_probe refl present)
    intro old
    cases old with
    | false => trivial
    | true => exact touches remove removes
  · intro _
    exact touches put puts

end Moves

-- What every access keeps holds wherever the program is cut off, and at its end.
theorem safe_of_moves {ε : Type} (inv : σ → Prop) (prog : Prog (Faulty σ) ε α)
    (moves : Moves (fun state after => inv state → inv after) prog) (device : Faulty σ) (here : inv device.state) :
    SafeAccess inv prog (fun _ seen => inv seen.state) device := by
  have refl : ∀ seen : Faulty σ, inv seen.state → inv seen.state := fun _ => id
  have trans : ∀ one two three : Faulty σ, (inv one.state → inv two.state) → (inv two.state → inv three.state) → inv one.state →
    inv three.state :=
    fun _ _ _ first second start => second (first start)
  rw [SafeAccess, Prog.safe_iff]
  exact ⟨fun seen cut => Prog.acts_cut refl trans prog moves device seen cut here, Prog.acts_exec refl trans prog moves device here⟩

-- A change that keeps the invariant, and a call without effect.
theorem keeps_touch (inv : σ → Prop) (run : σ → Except String σ)
    (fits : ∀ state after, run state = .ok after → inv state → inv after) :
    Moves (fun state after => inv state → inv after) (touch run) := moves_touch (fun _ => id) run fits

theorem keeps_fallible (inv : σ → Prop) : Moves (fun state after => inv state → inv after) (fallible : Device σ Unit) :=
  moves_fallible fun _ => id

-- A part that keeps the invariant, whatever it comes to.
theorem safe_pass {ε β : Type} (inv : σ → Prop) (prog : Prog (Faulty σ) ε α) (next : α → Prog (Faulty σ) ε β)
    (post : Except ε β → Faulty σ → Prop) (device : Faulty σ) (here : inv device.state)
    (moves : Moves (fun state after => inv state → inv after) prog)
    (goes : ∀ value seen, inv seen.state → SafeAccess inv (next value) post seen)
    (fails : ∀ error seen, inv seen.state → post (.error error) seen) : SafeAccess inv (prog >>= next) post device := by
  apply safe_then _ _ _ _ _ (safe_of_moves inv prog moves device here)
  · exact fun value seen kept _ => goes value seen kept
  · exact fun error seen kept _ => fails error seen kept

section Outcomes

variable {crash : σ → Prop}

-- A program ends well, or an access of it was refused, or something is in its way.
def comesTo {ε : Type} (faults : List Bool) (good : α → σ → Prop) (blocked : Prop) : Except ε α → Faulty σ → Prop
  | .ok value, seen => good value seen.state ∧ (faults = [] → seen.faults = [])
  | .error _, _ => faults = [] → blocked

theorem comes_later {ε : Type} (faults rest : List Bool) (good : α → σ → Prop) (blocked : Prop) (outcome : Except ε α)
    (seen : Faulty σ) (quiet : faults = [] → rest = []) (comes : comesTo rest good blocked outcome seen) :
    comesTo faults good blocked outcome seen := by
  cases outcome with
  | error error => exact fun none => comes (quiet none)
  | ok value => exact ⟨comes.1, fun none => comes.2 (quiet none)⟩

theorem comes_touch (run : σ → Except String σ) (good : Unit → σ → Prop) (blocked : Prop) (state : σ) (faults : List Bool)
    (here : crash state) (done : ∀ after, run state = .ok after → crash after ∧ good () after)
    (fails : ∀ error, run state = .error error → blocked) :
    SafeAccess crash (touch run) (comesTo faults good blocked) ⟨state, faults⟩ := by
  apply safe_touch _ _ _ here
  · intro after rest ran quiet
    exact ⟨(done after ran).1, (done after ran).2, quiet⟩
  · exact fun error rest refused none => fails error (refused none).2

theorem comes_fallible (good : Unit → σ → Prop) (blocked : Prop) (state : σ) (faults : List Bool) (here : crash state)
    (ends : good () state) :
    SafeAccess crash fallible (comesTo faults good blocked) ⟨state, faults⟩ := by
  apply comes_touch _ _ _ _ _ here
  · intro after ran
    cases ran
    exact ⟨here, ends⟩
  · exact fun _ => nofun

theorem comes_inspect (look : σ → Except String α) (good : α → σ → Prop) (blocked : Prop) (state : σ) (faults : List Bool)
    (here : crash state) (done : ∀ value, look state = .ok value → good value state)
    (fails : ∀ error, look state = .error error → blocked) :
    SafeAccess crash (inspect look) (comesTo faults good blocked) ⟨state, faults⟩ := by
  apply safe_inspect _ _ _ here
  · exact fun value rest read quiet => ⟨done value read, quiet⟩
  · exact fun error rest refused none => fails error (refused none).2

theorem comes_done {ε : Type} (value : α) (good : α → σ → Prop) (blocked : Prop) (state : σ) (faults : List Bool) (here : crash state)
    (ends : good value state) : SafeAccess crash (pure value : Prog (Faulty σ) ε α) (comesTo faults good blocked) ⟨state, faults⟩ :=
  safe_done _ _ _ here ⟨ends, id⟩

theorem comes_fails {ε : Type} (error : ε) (good : α → σ → Prop) (blocked : Prop) (state : σ) (faults : List Bool)
    (here : crash state) (reason : blocked) : SafeAccess crash (.fail error) (comesTo faults good blocked) ⟨state, faults⟩ :=
      ⟨here, fun _ => reason⟩

theorem comes_then {ε β : Type} (prog : Prog (Faulty σ) ε α) (next : α → Prog (Faulty σ) ε β) (first : α → σ → Prop)
    (good : β → σ → Prop) (blocked : Prop) (state : σ) (faults : List Bool)
    (begins : SafeAccess crash prog (comesTo faults first blocked) ⟨state, faults⟩)
    (goes : ∀ value state rest, crash state → first value state →
    SafeAccess crash (next value) (comesTo rest good blocked) ⟨state, rest⟩) :
    SafeAccess crash (prog >>= next) (comesTo faults good blocked) ⟨state, faults⟩ := by
  apply safe_then _ _ _ _ _ begins
  · intro value seen here left
    obtain ⟨state, rest⟩ := seen
    exact Prog.safe_mono _ _ _ _ (fun outcome last _ comes => comes_later faults rest good blocked outcome last left.2 comes)
      (goes value state rest here left.1)
  · exact fun error seen _ left => left

theorem comes_check {ε β : Type} (result : Except ε α) (next : α → Prog (Faulty σ) ε β) (good : β → σ → Prop)
    (blocked : Prop) (state : σ) (faults : List Bool) (here : crash state)
    (passes : ∀ value, result = .ok value → SafeAccess crash (next value) (comesTo faults good blocked) ⟨state, faults⟩)
    (fails : ∀ error, result = .error error → blocked) :
    SafeAccess crash (Prog.ofExcept result >>= next) (comesTo faults good blocked) ⟨state, faults⟩ := by
  apply safe_check _ _ _ _ here passes
  exact fun error refused _ => fails error refused

theorem comes_result {ε : Type} (result : Except ε α) (good : α → σ → Prop) (blocked : Prop) (state : σ)
    (faults : List Bool) (here : crash state) (passes : ∀ value, result = .ok value → good value state)
    (fails : ∀ error, result = .error error → blocked) :
    SafeAccess crash (Prog.ofExcept result) (comesTo faults good blocked) ⟨state, faults⟩ := by
  apply safe_result _ _ _ here
  cases result with
  | error error => exact fun _ => fails error rfl
  | ok value => exact ⟨passes value rfl, id⟩

theorem comes_for_each {ι : Type} (body : ι → Device σ Unit) (inv : List ι → σ → Prop) (blocked : Prop)
    (step : ∀ item rest state faults, inv (item :: rest) state →
      SafeAccess crash (body item) (comesTo faults (fun _ => inv rest) blocked) ⟨state, faults⟩)
    (ends : ∀ state, inv [] state → crash state) (items : List ι) (state : σ) (faults : List Bool) (starts : inv items state) :
    SafeAccess crash (Prog.forEach items body) (comesTo faults (fun _ => inv []) blocked) ⟨state, faults⟩ := by
  induction items generalizing state faults with
  | nil => exact comes_done () _ _ state faults (ends state starts) starts
  | cons item rest ih =>
      apply comes_then _ _ _ _ _ _ _ (step item rest state faults starts)
      exact fun _ after faults _ left => ih after faults left

theorem comes_mono {ε : Type} (prog : Prog (Faulty σ) ε α) (strong weak : α → σ → Prop) (first blocked : Prop) (device : Faulty σ)
    (faults : List Bool) (imp : ∀ value state, crash state → strong value state → weak value state) (reason : first → blocked)
    (safe : SafeAccess crash prog (comesTo faults strong first) device) :
    SafeAccess crash prog (comesTo faults weak blocked) device := by
  refine Prog.safe_mono _ _ _ _ (fun outcome seen here comes => ?_) safe
  cases outcome with
  | error error => exact fun none => reason (comes none)
  | ok value => exact ⟨imp value seen.state here comes.1, comes.2⟩

-- An undisturbed run that ends well says how every undisturbed run ends.
theorem comes_quiet {ε : Type} (prog : Prog (Faulty σ) ε α) (good : α → σ → Prop) (blocked : Prop) (state after : σ)
    (faults : List Bool) (value : α)
    (safe : SafeAccess crash prog (fun outcome seen => ∀ value, outcome = .ok value → good value seen.state) ⟨state, faults⟩)
    (quiet : prog.exec ⟨state, []⟩ = (.ok value, ⟨after, []⟩)) :
    SafeAccess crash prog (comesTo faults good blocked) ⟨state, faults⟩ := by
  rw [SafeAccess, Prog.safe_iff] at safe ⊢
  refine ⟨safe.1, ?_⟩
  have ends : faults = [] → prog.exec ⟨state, faults⟩ = (.ok value, ⟨after, []⟩) := fun none => none ▸ quiet
  cases outcome : prog.exec ⟨state, faults⟩ with
  | mk result seen =>
      rw [outcome] at ends safe
      cases result with
      | error error => exact fun none => nomatch ends none
      | ok found => exact ⟨safe.2 found rfl, fun none => congrArg (fun run => run.2.faults) (ends none)⟩

end Outcomes

section Quiet

theorem quiet_touch (run : σ → Except String σ) (state : σ) :
    (touch run).exec ⟨state, []⟩ = ((run state).map fun _ => (), ⟨(run state).toOption.getD state, []⟩) := by
  rw [touch, Prog.access, Prog.exec, Prog.exec_of_except, Prog.accessStep, Prog.settle]
  cases run state <;> rfl

theorem quiet_inspect (look : σ → Except String α) (state : σ) : (inspect look).exec ⟨state, []⟩ = (look state, ⟨state, []⟩) := by
  rw [inspect, Prog.access, Prog.exec, Prog.exec_of_except, Prog.accessStep, Prog.settle]
  cases look state <;> rfl

theorem quiet_probe {ε : Type} (look : σ → α) (device : Faulty σ) :
    (probe look : Prog (Faulty σ) ε α).exec device = (.ok (look device.state), device) := rfl

-- Undisturbed, the new file is in its place.
theorem quiet_atomic (present : σ → Bool) (remove put : σ → σ) (state : σ) :
    (atomicWriteJson present remove put).exec ⟨state, []⟩ =
    (.ok (), ⟨put (if present state = true then remove state else state), []⟩) := by
  simp only [atomicWriteJson, removeOld, fallible, Prog.exec_bind, quiet_touch, quiet_probe, Except.map, Except.toOption,
    Option.getD_some]
  cases present state with
  | false => rfl
  | true => simp only [if_true, quiet_touch, Except.map, Except.toOption, Option.getD_some]

end Quiet

end SessionSync.Local
