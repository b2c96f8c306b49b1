import SessionSync.Core.Canonical
import SessionSync.Core.ThreadView
import SessionSync.Lib.Keyed

set_option autoImplicit false

namespace SessionSync.Core

def KeysSorted (fields : Fields) : Prop := fields.Pairwise fun a b => a.1 < b.1

theorem key_after (key name : String) (notBefore : ¬ key < name) (different : key ≠ name) : name < key := by
  have below : name ≤ key := String.not_lt.mp notBefore
  by_cases less : name < key
  · exact less
  · exact absurd (String.le_antisymm (String.not_lt.mp less) below) different

theorem field_cons (key name : String) (value : Value) (rest : Fields) :
    fieldOf ((key, value) :: rest) name = if key = name then some value else fieldOf rest name := by
  by_cases same : key = name
  · simp [fieldOf, same]
  · simp [fieldOf, same]

theorem field_above (name : String) (fields : Fields) (above : ∀ field ∈ fields, name < field.1) :
    fieldOf fields name = none := by
  induction fields with
  | nil => rfl
  | cons head rest ih =>
      obtain ⟨key, value⟩ := head
      have later := above (key, value) List.mem_cons_self
      have differ : key ≠ name := fun same => String.lt_irrefl name (same ▸ later)
      rw [field_cons, if_neg differ]
      exact ih fun field member => above field (List.mem_cons_of_mem _ member)

theorem field_below_head (name key : String) (value : Value) (rest : Fields) (below : name < key)
    (above : ∀ field ∈ rest, key < field.1) : fieldOf ((key, value) :: rest) name = none := by
  refine field_above name _ fun field member => ?_
  rcases List.mem_cons.mp member with same | later
  · rw [same]
    exact below
  · exact String.lt_trans below (above field later)

-- A sorted map is its lookups.
theorem fields_ext (left right : Fields) (leftSorted : KeysSorted left) (rightSorted : KeysSorted right)
    (same : ∀ name, fieldOf left name = fieldOf right name) : left = right := by
  induction left generalizing right with
  | nil =>
      cases right with
      | nil => rfl
      | cons head rest =>
          have missing := same head.1
          rw [field_cons, if_pos rfl] at missing
          cases missing
  | cons head rest ih =>
      obtain ⟨key, value⟩ := head
      obtain ⟨above, tail⟩ := List.pairwise_cons.mp leftSorted
      have atKey := same key
      rw [field_cons, if_pos rfl] at atKey
      cases right with
      | nil => cases atKey
      | cons other others =>
          obtain ⟨name, found⟩ := other
          obtain ⟨beyond, remaining⟩ := List.pairwise_cons.mp rightSorted
          have atName := same name
          rw [field_cons name name, if_pos rfl] at atName
          by_cases before : key < name
          · rw [field_below_head key name found others before beyond] at atKey
            cases atKey
          by_cases equal : key = name
          · subst equal
            rw [field_cons, if_pos rfl, Option.some.injEq] at atKey
            subst atKey
            have tails : rest = others := by
              refine ih others tail remaining fun other => ?_
              have both := same other
              rw [field_cons, field_cons] at both
              by_cases first : key = other
              · subst first
                rw [field_above key rest above, field_above key others beyond]
              · rwa [if_neg first, if_neg first] at both
            rw [tails]
          · rw [field_below_head name key value rest (key_after key name before equal) above] at atName
            cases atName

theorem field_listed (fields : Fields) (distinct : (fields.map Prod.fst).Nodup) (key : String) (value : Value) :
    fieldOf fields key = some value ↔ (key, value) ∈ fields := by
  induction fields with
  | nil => simp [fieldOf]
  | cons head rest ih =>
      obtain ⟨name, held⟩ := head
      obtain ⟨fresh, tail⟩ := List.nodup_cons.mp distinct
      rw [field_cons, List.mem_cons, Prod.mk.injEq]
      by_cases same : name = key
      · subst same
        have absent : (name, value) ∉ rest := fun member => fresh (List.mem_map.mpr ⟨_, member, rfl⟩)
        simp [absent, eq_comm]
      · rw [if_neg same, ih tail]
        simp [Ne.symm same]

theorem field_iff (fields : Fields) (sorted : KeysSorted fields) (key : String) (value : Value) :
    fieldOf fields key = some value ↔ (key, value) ∈ fields :=
  field_listed fields (List.pairwise_map.mpr (List.Pairwise.imp (fun less => String.ne_of_lt less) sorted)) key value

theorem field_filter (keep : String → Bool) (fields : Fields) (name : String) :
    fieldOf (fields.filter fun field => keep field.1) name = if keep name = true then fieldOf fields name else none := by
  induction fields with
  | nil => simp [fieldOf]
  | cons head rest ih =>
      obtain ⟨key, value⟩ := head
      by_cases kept : keep key = true
      · rw [List.filter_cons_of_pos (by exact kept), field_cons, field_cons, ih]
        by_cases same : key = name
        · rw [if_pos same, if_pos same, if_pos (same ▸ kept)]
        · rw [if_neg same, if_neg same]
      · rw [List.filter_cons_of_neg (by exact kept), field_cons, ih]
        by_cases same : key = name
        · rw [if_neg (same ▸ kept), if_neg (same ▸ kept)]
        · rw [if_neg same]

theorem field_map (change : Value → Value) (fields : Fields) (name : String) :
    fieldOf (fields.map fun field => (field.1, change field.2)) name = (fieldOf fields name).map change := by
  induction fields with
  | nil => rfl
  | cons head rest ih =>
      obtain ⟨key, value⟩ := head
      rw [List.map_cons, field_cons, field_cons, ih]
      by_cases same : key = name
      · rw [if_pos same, if_pos same, Option.map_some]
      · rw [if_neg same, if_neg same]

theorem filter_sorted (keep : String × Value → Bool) (fields : Fields) (sorted : KeysSorted fields) :
    KeysSorted (fields.filter keep) := List.Pairwise.filter keep sorted

theorem map_sorted (change : Value → Value) (fields : Fields) (sorted : KeysSorted fields) :
    KeysSorted (fields.map fun field => (field.1, change field.2)) := List.pairwise_map.mpr sorted

theorem well_formed_fields_iff (fields : Fields) : WellFormedFields fields ↔ ∀ field ∈ fields, WellFormed field.2 := by
  induction fields with
  | nil => simp [WellFormedFields]
  | cons field rest ih => simp [WellFormedFields, ih]

theorem well_formed_elements_iff (values : List Value) : WellFormedElements values ↔ ∀ value ∈ values, WellFormed value := by
  induction values with
  | nil => simp [WellFormedElements]
  | cons value rest ih => simp [WellFormedElements, ih]

theorem sort_elements_map (values : List Value) : sortElements values = values.map sortKeys := by
  induction values with
  | nil => rfl
  | cons value rest ih => simp only [sortElements, ih, List.map_cons]

theorem sort_fields_keys (fields : Fields) : (sortFields fields).map Prod.fst = fields.map Prod.fst := by
  induction fields with
  | nil => rfl
  | cons field rest ih => simp only [sortFields, List.map_cons, ih]

-- Two objects that name the same keys in the same order sort to one value only where
-- every field does.
theorem sort_object_cancel (left right : Fields) (keys : left.map Prod.fst = right.map Prod.fst)
    (distinct : (left.map Prod.fst).Nodup) : sortKeys (.object left) = sortKeys (.object right) ↔
      sortFields left = sortFields right := by
  constructor
  · intro same
    have sorted := Value.object.inj (by simpa only [sortKeys] using same)
    have moved : (sortFields left).Perm (sortFields right) :=
      ((List.perm_insertionSort _ _).symm.trans (.of_eq sorted)).trans (List.perm_insertionSort _ _)
    refine Keyed.perm_same_keys Prod.fst _ _ moved ?_ ?_
    · rw [sort_fields_keys, sort_fields_keys, keys]
    · rw [sort_fields_keys]
      exact distinct
  · intro same
    simp only [sortKeys, same]

end SessionSync.Core
