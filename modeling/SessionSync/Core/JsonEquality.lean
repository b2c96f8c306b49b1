import SessionSync.Core.CanonicalWriters

set_option autoImplicit false

namespace SessionSync.Core

mutual
-- Equality of values whose objects list their fields in any order: as many fields, and
-- each of them under the same key in the other.
def SameJson : Value → Value → Prop
  | .null, .null => True
  | .bool left, .bool right => left = right
  | .number left, .number right => left = right
  | .string left, .string right => left = right
  | .array left, .array right => SameElements left right
  | .object left, .object right => left.length = right.length ∧ SameFields left right
  | _, _ => False
def SameElements : List Value → List Value → Prop
  | [], [] => True
  | left :: rest, right :: others => SameJson left right ∧ SameElements rest others
  | _, _ => False
def SameFields : Fields → Fields → Prop
  | [], _ => True
  | (key, value) :: rest, others => (∃ other, fieldOf others key = some other ∧ SameJson value other) ∧ SameFields rest others
end

theorem same_fields_iff (left right : Fields) :
    SameFields left right ↔ ∀ field ∈ left, ∃ other, fieldOf right field.1 = some other ∧ SameJson field.2 other := by
  induction left with
  | nil => simp [SameFields]
  | cons field rest ih => rw [SameFields, ih, List.forall_mem_cons]

-- Two maps of one size, the first of which has all its keys in the second.
theorem keys_covered (left right : Fields) (leftDistinct : (left.map Prod.fst).Nodup) (size : left.length = right.length)
    (covered : ∀ field ∈ left, ∃ other, fieldOf right field.1 = some other) (key : String) (absent : fieldOf left key = none) :
    fieldOf right key = none := by
  have inside : left.map Prod.fst ⊆ right.map Prod.fst := by
    intro name member
    obtain ⟨field, listed, rfl⟩ := List.mem_map.mp member
    obtain ⟨other, held⟩ := covered field listed
    by_contra outside
    rw [(field_absent right field.1).mpr outside] at held
    cases held
  have all : (left.map Prod.fst).Perm (right.map Prod.fst) :=
    (leftDistinct.subperm inside).perm_of_length_le (by simp [size])
  rw [field_absent] at absent ⊢
  exact fun member => absent (all.mem_iff.mpr member)

theorem sorted_fields_iff (left right : Fields) (leftDistinct : (left.map Prod.fst).Nodup)
    (rightDistinct : (right.map Prod.fst).Nodup) :
    sortedFields left = sortedFields right ↔
      left.length = right.length ∧ ∀ field ∈ left, ∃ other, fieldOf right field.1 = some other ∧
        sortKeys field.2 = sortKeys other := by
  have lookups : sortedFields left = sortedFields right ↔
    ∀ key, (fieldOf left key).map sortKeys = (fieldOf right key).map sortKeys := by
    constructor
    · intro same key
      rw [← sorted_field left leftDistinct, same, sorted_field right rightDistinct]
    · intro same
      refine fields_ext _ _ (sorted_fields_sorted left leftDistinct) (sorted_fields_sorted right rightDistinct) fun key => ?_
      rw [sorted_field left leftDistinct, sorted_field right rightDistinct, same]
  have size : ∀ fields, (sortedFields fields).length = fields.length := by
    intro fields
    rw [(sorted_fields_perm fields).length_eq, sort_fields_map, List.length_map]
  constructor
  · intro same
    refine ⟨by rw [← size left, same, size], fun field member => ?_⟩
    have looked := lookups.mp same field.1
    rw [(field_listed left leftDistinct field.1 field.2).mpr member, Option.map_some] at looked
    obtain ⟨other, held, equal⟩ := Option.map_eq_some_iff.mp looked.symm
    exact ⟨other, held, equal.symm⟩
  · rintro ⟨length, covered⟩
    rw [lookups]
    intro key
    cases held : fieldOf left key with
    | none =>
        rw [keys_covered left right leftDistinct length (fun field member => (covered field member).imp fun _ => And.left) key held]
    | some value =>
        obtain ⟨other, found, same⟩ := covered (key, value) ((field_listed left leftDistinct key value).mp held)
        rw [found, Option.map_some, Option.map_some, same]

theorem sorted_elements_iff (left right : List Value)
    (each : ∀ value ∈ left, ∀ other ∈ right, sortKeys value = sortKeys other ↔ SameJson value other) :
    sortElements left = sortElements right ↔ SameElements left right := by
  induction left generalizing right with
  | nil => cases right <;> simp [sortElements, SameElements]
  | cons value rest ih =>
      cases right with
      | nil => simp [sortElements, SameElements]
      | cons other others =>
          rw [sortElements, sortElements, List.cons.injEq, SameElements, each value List.mem_cons_self other List.mem_cons_self,
            ih others fun one member another among => each one (List.mem_cons_of_mem _ member) another (List.mem_cons_of_mem _ among)]

theorem sorted_iff (left right : Value) (leftMapped : Mapped left) (rightMapped : Mapped right) :
    sortKeys left = sortKeys right ↔ SameJson left right := by
  induction left using value_induction generalizing right with
  | null => cases right <;> simp [sortKeys, SameJson]
  | bool value => cases right <;> simp [sortKeys, SameJson]
  | number value => cases right <;> simp [sortKeys, SameJson]
  | string text => cases right <;> simp [sortKeys, SameJson]
  | array values ih =>
      cases right with
      | array others =>
          rw [sortKeys, sortKeys, Value.array.injEq, SameJson]
          exact sorted_elements_iff values others fun value member other among =>
            ih value member other ((mapped_elements_iff values).mp leftMapped value member)
              ((mapped_elements_iff others).mp rightMapped other among)
      | null | bool | number | string | object => simp [sortKeys, SameJson]
  | object fields ih =>
      cases right with
      | object others =>
          rw [sortKeys, sortKeys, Value.object.injEq, SameJson, same_fields_iff]
          refine (sorted_fields_iff fields others leftMapped.2 rightMapped.2).trans (and_congr_right fun _ => ?_)
          refine forall₂_congr fun field member => exists_congr fun other => and_congr_right fun held => ?_
          have among := (field_listed others rightMapped.2 field.1 other).mp held
          exact ih field member other ((mapped_fields_iff fields).mp leftMapped.1 field member)
            ((mapped_fields_iff others).mp rightMapped.1 _ among)
      | null | bool | number | string | array => simp [sortKeys, SameJson]

theorem well_formed_mapped (value : Value) (formed : WellFormed value) : Mapped value := by
  induction value using value_induction with
  | null => trivial
  | bool value => trivial
  | number value => exact formed
  | string text => trivial
  | array values ih =>
      exact (mapped_elements_iff values).mpr fun value member =>
      ih value member ((well_formed_elements_iff values).mp formed value member)
  | object fields ih =>
      refine ⟨(mapped_fields_iff fields).mpr fun field member =>
        ih field member ((well_formed_fields_iff fields).mp formed.1 field member), ?_⟩
      exact List.pairwise_map.mpr (formed.2.imp fun less => (String.ne_of_lt less))

theorem mapped_printable (value : Value) (mapped : Mapped value) : Printable value := by
  induction value using value_induction with
  | null => trivial
  | bool value => trivial
  | number value => exact mapped
  | string text => trivial
  | array values ih =>
      exact (printable_elements values).mpr fun value member => ih value member ((mapped_elements_iff values).mp mapped value member)
  | object fields ih =>
      exact (printable_fields fields).mpr fun field member => ih field member ((mapped_fields_iff fields).mp mapped.1 field member)

-- Sorting gives the value a serde_json::Map holds.
theorem sort_keys_formed (value : Value) (mapped : Mapped value) : WellFormed (sortKeys value) := by
  induction value using value_induction with
  | null => trivial
  | bool value => trivial
  | number value => exact mapped
  | string text => trivial
  | array values ih =>
      rw [sortKeys, sort_elements_map]
      refine (well_formed_elements_iff _).mpr fun value member => ?_
      obtain ⟨held, listed, rfl⟩ := List.mem_map.mp member
      exact ih held listed ((mapped_elements_iff values).mp mapped held listed)
  | object fields ih =>
      refine ⟨(well_formed_fields_iff _).mpr fun field member => ?_, sorted_fields_sorted fields mapped.2⟩
      have inside := (sorted_fields_perm fields).mem_iff.mp member
      rw [sort_fields_map] at inside
      obtain ⟨held, listed, rfl⟩ := List.mem_map.mp inside
      exact ih held listed ((mapped_fields_iff fields).mp mapped.1 held listed)

theorem same_json_formed (left right : Value) (leftFormed : WellFormed left) (rightFormed : WellFormed right) :
    SameJson left right ↔ left = right := by
  rw [← sorted_iff left right (well_formed_mapped left leftFormed) (well_formed_mapped right rightFormed),
    sort_keys_well_formed left leftFormed, sort_keys_well_formed right rightFormed]

end SessionSync.Core
