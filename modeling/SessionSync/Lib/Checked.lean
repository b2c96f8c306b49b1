import Mathlib.Data.Option.Basic

set_option autoImplicit false

namespace Checked

variable {ε α β : Type}

-- An early return: the error unless the condition holds.
def ensure (condition : Prop) [Decidable condition] (error : ε) : Except ε Unit :=
  if condition then .ok () else .error error

-- `ok_or`: the value of an option, or the error.
def found (value : Option α) (error : ε) : Except ε α :=
  match value with
  | none => .error error
  | some value => .ok value

theorem bind_ok (first : Except ε α) (next : α → Except ε β) (result : β) :
    (first >>= next) = .ok result ↔ ∃ value, first = .ok value ∧ next value = .ok result := by
  cases first with
  | error reason => exact ⟨nofun, fun ⟨_, impossible, _⟩ => nomatch impossible⟩
  | ok value => exact ⟨fun run => ⟨value, rfl, run⟩, fun ⟨_, rfl, run⟩ => run⟩

theorem error_ne_ok (error : ε) (value : α) : (Except.error error : Except ε α) ≠ .ok value := by
  intro same
  cases same

-- What is said of a value alone says nothing of an error.
theorem no_value {p : Prop} (error : ε) (value : α) (same : (Except.error error : Except ε α) = .ok value) : p :=
  (error_ne_ok error value same).elim

theorem pure_ok (value result : α) : (pure value : Except ε α) = .ok result ↔ value = result := by
  rw [pure, Applicative.toPure, Monad.toApplicative, Except.instMonad]
  exact Except.ok.injEq value result ▸ Iff.rfl

theorem ensure_ok (condition : Prop) [Decidable condition] (error : ε) (value : Unit) :
    ensure condition error = .ok value ↔ condition := by
  by_cases holds : condition
  · rw [ensure, if_pos holds]
    exact iff_of_true rfl holds
  · rw [ensure, if_neg holds]
    exact iff_of_false nofun holds

theorem found_ok (value : Option α) (error : ε) (result : α) : found value error = .ok result ↔ value = some result := by
  cases value with
  | none => simp only [found, reduceCtorEq]
  | some value => simp only [found, Except.ok.injEq, Option.some.injEq]

theorem map_error_ok {ε' : Type} (result : Except ε α) (wrap : ε → ε') (value : α) :
    result.mapError wrap = .ok value ↔ result = .ok value := by
  cases result with
  | error reason => exact iff_of_false nofun nofun
  | ok found => rw [Except.mapError, Except.ok.injEq, Except.ok.injEq]

theorem ensured (condition : Prop) [Decidable condition] (error : ε) (next : Unit → Except ε β) (holds : condition) :
    (ensure condition error >>= next) = next () := by
  rw [ensure, if_pos holds]
  rfl

theorem present (value : α) (error : ε) (next : α → Except ε β) : (found (some value) error >>= next) = next value := rfl

-- A loop that collects results succeeds when every step does.
theorem map_each_iff (step : α → Except ε β) (items : List α) :
    (∃ results, items.mapM step = .ok results) ↔ ∀ item ∈ items, ∃ result, step item = .ok result := by
  induction items with
  | nil => exact iff_of_true ⟨[], rfl⟩ (List.forall_mem_nil _)
  | cons item rest ih =>
      rw [List.mapM_cons, List.forall_mem_cons, ← ih]
      simp only [bind_ok, pure_ok]
      constructor
      · rintro ⟨_, first, one, later, many, _⟩
        exact ⟨⟨first, one⟩, later, many⟩
      · rintro ⟨⟨first, one⟩, later, many⟩
        exact ⟨first :: later, first, one, later, many, rfl⟩

theorem map_each_fixed (step : α → Except ε β) (result : α → β) (items : List α)
    (each : ∀ item ∈ items, step item = .ok (result item)) :
    items.mapM step = .ok (items.map result) := by
  induction items with
  | nil => rfl
  | cons item rest ih =>
      obtain ⟨first, tail⟩ := List.forall_mem_cons.mp each
      simp only [List.mapM_cons, first, ih tail]
      rfl

theorem map_each_mem (step : α → Except ε β) (items : List α) (results : List β) (run : items.mapM step = .ok results) (result : β)
    (member : result ∈ results) : ∃ item ∈ items, step item = .ok result := by
  induction items generalizing results with
  | nil =>
      cases run
      cases member
  | cons item rest ih =>
      simp only [List.mapM_cons, bind_ok, pure_ok] at run
      obtain ⟨first, one, others, many, rfl⟩ := run
      rcases List.mem_cons.mp member with rfl | later
      · exact ⟨item, List.mem_cons_self, one⟩
      · obtain ⟨other, among, same⟩ := ih others many later
        exact ⟨other, List.mem_cons_of_mem _ among, same⟩

-- What every step keeps of its item is kept of the whole list, in order.
theorem map_each_image {γ : Type} (step : α → Except ε β) (source : α → γ) (image : β → γ) (items : List α) (results : List β)
    (each : ∀ item ∈ items, ∀ result, step item = .ok result → image result = source item) (run : items.mapM step = .ok results) :
    results.map image = items.map source := by
  induction items generalizing results with
  | nil =>
      cases run
      rfl
  | cons item rest ih =>
      have first := List.forall_mem_cons.mp each
      simp only [List.mapM_cons, bind_ok, pure_ok] at run
      obtain ⟨result, one, others, many, rfl⟩ := run
      rw [List.map_cons, List.map_cons, first.1 result one, ih others first.2 many]

-- A loop whose steps are undone one by one is undone by the same loop.
theorem map_back (forth : α → Except ε β) (back : β → Except ε α) (items : List α) (there : List β)
    (each : ∀ item ∈ items, ∀ other, forth item = .ok other → back other = .ok item) (maps : items.mapM forth = .ok there) :
    there.mapM back = .ok items := by
  induction items generalizing there with
  | nil =>
      cases maps
      rfl
  | cons item rest ih =>
      have first := List.forall_mem_cons.mp each
      simp only [List.mapM_cons, bind_ok, pure_ok] at maps
      obtain ⟨other, one, others, many, rfl⟩ := maps
      simp only [List.mapM_cons, bind_ok, pure_ok]
      exact ⟨item, first.1 other one, rest, ih others first.2 many, rfl⟩

end Checked
