import SessionSync.Core.Fields

set_option autoImplicit false

namespace SessionSync.Core

mutual
-- The values of a map that keeps its keys in any order: no key stands twice, and the
-- numbers are ones that print.
def Mapped : Value → Prop
  | .null => True
  | .bool _ => True
  | .number value => value.WellFormed
  | .string _ => True
  | .array values => MappedElements values
  | .object fields => MappedFields fields ∧ (fields.map Prod.fst).Nodup
def MappedElements : List Value → Prop
  | [] => True
  | value :: rest => Mapped value ∧ MappedElements rest
def MappedFields : Fields → Prop
  | [] => True
  | (_, value) :: rest => Mapped value ∧ MappedFields rest
end

theorem mapped_elements_iff (values : List Value) : MappedElements values ↔ ∀ value ∈ values, Mapped value := by
  induction values with
  | nil => simp [MappedElements]
  | cons value rest ih => simp [MappedElements, ih]

theorem mapped_fields_iff (fields : Fields) : MappedFields fields ↔ ∀ field ∈ fields, Mapped field.2 := by
  induction fields with
  | nil => simp [MappedFields]
  | cons field rest ih => simp [MappedFields, ih]

-- What holds of a value when it holds of everything it is made of holds of every value.
@[elab_as_elim]
theorem value_induction {motive : Value → Prop} (null : motive .null) (bool : ∀ value, motive (.bool value))
    (number : ∀ value, motive (.number value)) (string : ∀ text, motive (.string text))
    (array : ∀ values, (∀ value ∈ values, motive value) → motive (.array values))
    (object : ∀ fields : Fields, (∀ field ∈ fields, motive field.2) → motive (.object fields)) (value : Value) : motive value :=
  @Value.rec motive (fun values => ∀ value ∈ values, motive value) (fun fields => ∀ field ∈ fields, motive field.2)
    (fun field => motive field.2) null bool number string array object (List.forall_mem_nil _)
    (fun _ _ one all => List.forall_mem_cons.mpr ⟨one, all⟩) (List.forall_mem_nil _)
    (fun _ _ one all => List.forall_mem_cons.mpr ⟨one, all⟩) (fun _ _ one => one) value

section Lookup

theorem field_absent (fields : Fields) (key : String) : fieldOf fields key = none ↔ key ∉ fields.map Prod.fst := by
  induction fields with
  | nil => simp [fieldOf]
  | cons head rest ih =>
      obtain ⟨name, held⟩ := head
      rw [field_cons, List.map_cons, List.mem_cons]
      by_cases same : name = key
      · simp [same]
      · rw [if_neg same, ih]
        simp [Ne.symm same]

theorem sort_fields_map (fields : Fields) : sortFields fields = fields.map fun field => (field.1, sortKeys field.2) := by
  induction fields with
  | nil => rfl
  | cons field rest ih => simp only [sortFields, ih, List.map_cons]

def sortedFields (fields : Fields) : Fields := (sortFields fields).insertionSort fun a b => a.1 ≤ b.1

theorem sorted_fields_perm (fields : Fields) : (sortedFields fields).Perm (sortFields fields) := List.perm_insertionSort _ _

theorem sorted_fields_distinct (fields : Fields) (distinct : (fields.map Prod.fst).Nodup) :
    ((sortedFields fields).map Prod.fst).Nodup := by
  refine (((sorted_fields_perm fields).map Prod.fst).nodup_iff).mpr ?_
  rw [sort_fields_keys]
  exact distinct

theorem sorted_fields_sorted (fields : Fields) (distinct : (fields.map Prod.fst).Nodup) : KeysSorted (sortedFields fields) := by
  have total : Std.Total fun a b : String × Value => a.1 ≤ b.1 := ⟨fun a b => String.le_total a.1 b.1⟩
  have trans : IsTrans (String × Value) fun a b => a.1 ≤ b.1 := ⟨fun a b c => String.le_trans⟩
  have weak : (sortedFields fields).Pairwise fun a b => a.1 ≤ b.1 := List.pairwise_insertionSort _ _
  have apart : (sortedFields fields).Pairwise fun a b => a.1 ≠ b.1 := List.pairwise_map.mp (sorted_fields_distinct fields distinct)
  refine (weak.and apart).imp fun pair => ?_
  exact String.not_le.mp fun below => pair.2 (String.le_antisymm pair.1 below)

theorem sorted_field (fields : Fields) (distinct : (fields.map Prod.fst).Nodup) (key : String) :
    fieldOf (sortedFields fields) key = (fieldOf fields key).map sortKeys := by
  have looked : fieldOf (sortFields fields) key = (fieldOf fields key).map sortKeys := by
    rw [sort_fields_map]
    exact field_map sortKeys fields key
  rw [← looked]
  refine Option.ext fun value => ?_
  rw [field_listed _ (sorted_fields_distinct fields distinct), field_listed _ (by rw [sort_fields_keys]; exact distinct)]
  exact (sorted_fields_perm fields).mem_iff

end Lookup

section Writers

variable (lib : Primitives)

-- A comma goes before every item but the first.
def separate (index : Nat) (output : List Char) : List Char := if index > 0 then output ++ [','] else output

theorem field_smaller (fields : Fields) (key : String) (value : Value) (held : fieldOf fields key = some value) :
    sizeOf value < sizeOf fields := by
  induction fields with
  | nil => cases held
  | cons head rest ih =>
      obtain ⟨name, other⟩ := head
      rw [field_cons] at held
      split at held
      · cases held
        simp
        omega
      · have less := ih held
        simp
        omega

-- write_canonical_json of the protocol and write_canonical_json_v4 sort the keys and look
-- each of them up; indexing with a key that is not there panics.
def writeByKeys (value : Value) (output : List Char) : Except String (List Char) :=
  match value with
  | .null => .ok (output ++ "null".toList)
  | .bool value => .ok (output ++ (if value then "true" else "false").toList)
  | .number value => .ok (output ++ writeNumber lib value)
  | .string text => .ok (output ++ writeString text)
  | .array values => do
      let output ← values.attach.zipIdx.foldlM (fun output item => writeByKeys item.1.1 (separate item.2 output)) (output ++ ['['])
      return output ++ [']']
  | .object values => do
      let keys := (values.map Prod.fst).insertionSort (fun a b => a ≤ b)
      let output ← keys.zipIdx.foldlM (fun output item =>
        match _held : fieldOf values item.1 with
        | some value => writeByKeys value (separate item.2 output ++ writeString item.1 ++ [':'])
        | none => .error "no entry found for key") (output ++ ['\x7b'])
      return output ++ ['\x7d']
termination_by sizeOf value
decreasing_by
  · have less := List.sizeOf_lt_of_mem item.1.2
    simp
    omega
  · have less := field_smaller values item.1 value _held
    simp
    omega

def writeCanonicalJson (value : Value) (output : List Char) : Except String (List Char) := writeByKeys lib value output

def writeCanonicalJsonV4 (value : Value) (output : List Char) : Except String (List Char) := writeByKeys lib value output

-- write_canonical_json of the v3 storage sorts the entries.
def writeCanonicalJsonV3 (value : Value) (output : List Char) : Except String (List Char) :=
  match value with
  | .null => .ok (output ++ "null".toList)
  | .bool value => .ok (output ++ (if value then "true" else "false").toList)
  | .number value => .ok (output ++ writeNumber lib value)
  | .string text => .ok (output ++ writeString text)
  | .array values => do
      let output ← values.attach.zipIdx.foldlM (fun output item => writeCanonicalJsonV3 item.1.1 (separate item.2 output))
        (output ++ ['['])
      return output ++ [']']
  | .object values => do
      let entries := values.attach.insertionSort (fun a b => a.1.1 ≤ b.1.1)
      let output ← entries.zipIdx.foldlM (fun output item =>
        writeCanonicalJsonV3 item.1.1.2 (separate item.2 output ++ writeString item.1.1.1 ++ [':'])) (output ++ ['\x7b'])
      return output ++ ['\x7d']
termination_by sizeOf value
decreasing_by
  · have less := List.sizeOf_lt_of_mem item.1.2
    simp
    omega
  · obtain ⟨⟨entry, member⟩, index⟩ := item
    obtain ⟨key, value⟩ := entry
    have less := List.sizeOf_lt_of_mem member
    simp at less ⊢
    omega

theorem intercalate_comma (first : List Char) (rest : List (List Char)) :
    [','].intercalate (first :: rest) = first ++ rest.flatMap fun text => ',' :: text := by
  induction rest generalizing first with
  | nil => simp
  | cons next rest ih =>
      rw [List.intercalate_cons_cons, ih next]
      simp

theorem separated_rest {α : Type} (step : List Char → α × Nat → Except String (List Char)) (text : α → List Char) (items : List α)
    (writes : ∀ item ∈ items, ∀ index output, step output (item, index) = .ok (separate index output ++ text item))
    (first : Nat) (later : 0 < first) (output : List Char) :
    (items.zipIdx first).foldlM step output = .ok (output ++ items.flatMap fun item => ',' :: text item) := by
  induction items generalizing first output with
  | nil => simp [pure, Except.pure]
  | cons item rest ih =>
      have tail := ih (fun other member => writes other (List.mem_cons_of_mem _ member)) (first + 1) (Nat.succ_pos _)
      rw [List.zipIdx_cons, List.foldlM_cons, writes item List.mem_cons_self, separate, if_pos later]
      change List.foldlM _ _ _ = _
      rw [tail]
      simp

-- The loop of a writer: what each turn adds, with commas in between.
theorem separated_fold {α : Type} (step : List Char → α × Nat → Except String (List Char)) (text : α → List Char) (items : List α)
    (writes : ∀ item ∈ items, ∀ index output, step output (item, index) = .ok (separate index output ++ text item))
    (output : List Char) :
    items.zipIdx.foldlM step output = .ok (output ++ [','].intercalate (items.map text)) := by
  cases items with
  | nil => simp [pure, Except.pure]
  | cons item rest =>
      have tail := separated_rest step text rest (fun other member => writes other (List.mem_cons_of_mem _ member)) 1 (Nat.succ_pos _)
      rw [List.zipIdx_cons, List.foldlM_cons, writes item List.mem_cons_self, separate, if_neg (Nat.lt_irrefl _)]
      change List.foldlM _ _ _ = _
      rw [tail, List.map_cons, intercalate_comma, List.flatMap_map, List.append_assoc]

theorem write_elements_joined (values : List Value) : writeElements lib values = [','].intercalate (values.map (writeJson lib)) := by
  induction values with
  | nil => rfl
  | cons value rest ih =>
      cases rest with
      | nil => simp [writeElements, List.intercalate]
      | cons next rest =>
          rw [writeElements, ih]
          simp [List.intercalate]

def memberText (field : String × Value) : List Char := writeString field.1 ++ ':' :: writeJson lib field.2

theorem write_fields_joined (fields : Fields) : writeFields lib fields = [','].intercalate (fields.map (memberText lib)) := by
  induction fields with
  | nil => rfl
  | cons field rest ih =>
      cases rest with
      | nil => simp [writeFields, memberText, List.intercalate]
      | cons next rest =>
          rw [writeFields, ih]
          simp [memberText, List.intercalate]

theorem sorted_keys_fields (fields : Fields) :
    (fields.map Prod.fst).insertionSort (fun a b => a ≤ b) = (sortedFields fields).map Prod.fst := by
  rw [sortedFields, List.map_insertionSort (fun a b : String × Value => a.1 ≤ b.1) (fun a b => a ≤ b) Prod.fst _ fun _ _ _ _ =>
    Iff.rfl,
    sort_fields_keys]

theorem sorted_texts (values : List Value) :
    values.attach.map (fun item => writeJson lib (sortKeys item.1)) = (sortElements values).map (writeJson lib) := by
  rw [sort_elements_map, List.map_map]
  exact List.attach_map_val (l := values) (f := fun value => writeJson lib (sortKeys value))

theorem write_by_keys (value : Value) (mapped : Mapped value) (output : List Char) :
    writeByKeys lib value output = .ok (output ++ writeJson lib (sortKeys value)) := by
  induction value using value_induction generalizing output with
  | null => rw [writeByKeys, sortKeys, writeJson]
  | bool value => rw [writeByKeys, sortKeys, writeJson]
  | number value => rw [writeByKeys, sortKeys, writeJson]
  | string text => rw [writeByKeys, sortKeys, writeJson]
  | array values ih =>
      have loop := separated_fold (fun output item => writeByKeys lib item.1.1 (separate item.2 output))
        (fun item : { value // value ∈ values } => writeJson lib (sortKeys item.1)) values.attach
        (fun item _ index output => ih item.1 item.2 ((mapped_elements_iff values).mp mapped item.1 item.2) _) (output ++ ['['])
      rw [writeByKeys, loop, sorted_texts, ← write_elements_joined, sortKeys, writeJson]
      simp [bind, Except.bind, pure, Except.pure]
  | object values ih =>
      obtain ⟨formed, distinct⟩ := mapped
      have found : ∀ field ∈ sortedFields values, ∃ value, fieldOf values field.1 = some value ∧ sortKeys value = field.2 ∧
        (field.1, value) ∈ values := by
        intro field member
        have held := (field_listed _ (sorted_fields_distinct values distinct) field.1 field.2).mpr member
        rw [sorted_field values distinct] at held
        obtain ⟨value, known, same⟩ := Option.map_eq_some_iff.mp held
        exact ⟨value, known, same, (field_listed values distinct field.1 value).mp known⟩
      have loop := separated_fold (fun output (item : (String × Value) × Nat) =>
          match _held : fieldOf values item.1.1 with
          | some value => writeByKeys lib value (separate item.2 output ++ writeString item.1.1 ++ [':'])
          | none => .error "no entry found for key") (memberText lib) (sortedFields values) (by
        intro field member index output
        obtain ⟨value, known, same, inside⟩ := found field member
        split
        · rename_i other held
          rw [known, Option.some.injEq] at held
          subst held
          rw [ih _ inside ((mapped_fields_iff values).mp formed _ inside), same, memberText]
          simp
        · rename_i absent
          rw [known] at absent
          cases absent) (output ++ ['\x7b'])
      rw [writeByKeys, sorted_keys_fields, List.zipIdx_map, List.foldlM_map]
      refine (congrArg (fun run => run >>= fun output => pure (output ++ ['\x7d'])) loop).trans ?_
      rw [sortKeys, writeJson, write_fields_joined]
      simp [bind, Except.bind, pure, Except.pure, sortedFields]

theorem sorted_entries (values : Fields) :
    (values.attach.insertionSort fun a b => a.1.1 ≤ b.1.1).map
    (fun entry => (entry.1.1, sortKeys entry.1.2)) = sortedFields values := by
  rw [List.map_insertionSort (fun a b : { field // field ∈ values } => a.1.1 ≤ b.1.1) (fun a b : String × Value => a.1 ≤ b.1)
    (fun entry => (entry.1.1, sortKeys entry.1.2)) _ fun _ _ _ _ => Iff.rfl, sortedFields, sort_fields_map]
  exact congrArg _ (List.attach_map_val (l := values) (f := fun field : String × Value => (field.1, sortKeys field.2)))

theorem write_v3 (value : Value) (mapped : Mapped value) (output : List Char) :
    writeCanonicalJsonV3 lib value output = .ok (output ++ writeJson lib (sortKeys value)) := by
  induction value using value_induction generalizing output with
  | null => rw [writeCanonicalJsonV3, sortKeys, writeJson]
  | bool value => rw [writeCanonicalJsonV3, sortKeys, writeJson]
  | number value => rw [writeCanonicalJsonV3, sortKeys, writeJson]
  | string text => rw [writeCanonicalJsonV3, sortKeys, writeJson]
  | array values ih =>
      have loop := separated_fold (fun output item => writeCanonicalJsonV3 lib item.1.1 (separate item.2 output))
        (fun item : { value // value ∈ values } => writeJson lib (sortKeys item.1)) values.attach
        (fun item _ index output => ih item.1 item.2 ((mapped_elements_iff values).mp mapped item.1 item.2) _) (output ++ ['['])
      rw [writeCanonicalJsonV3, loop, sorted_texts, ← write_elements_joined, sortKeys, writeJson]
      simp [bind, Except.bind, pure, Except.pure]
  | object values ih =>
      have loop := separated_fold (fun output item =>
          writeCanonicalJsonV3 lib item.1.1.2 (separate item.2 output ++ writeString item.1.1.1 ++ [':']))
        (fun entry : { field // field ∈ values } => memberText lib (entry.1.1, sortKeys entry.1.2))
        (values.attach.insertionSort fun a b => a.1.1 ≤ b.1.1) (by
          intro entry _ index output
          rw [ih _ entry.2 ((mapped_fields_iff values).mp mapped.1 _ entry.2), memberText]
          simp) (output ++ ['\x7b'])
      have texts : (values.attach.insertionSort fun a b => a.1.1 ≤ b.1.1).map (fun entry =>
        memberText lib (entry.1.1, sortKeys entry.1.2)) =
          (sortedFields values).map (memberText lib) := by
        rw [← sorted_entries, List.map_map]
        rfl
      rw [writeCanonicalJsonV3, loop, texts, sortKeys, writeJson, write_fields_joined]
      simp [bind, Except.bind, pure, Except.pure, sortedFields]

-- The writers start with no output, and what they leave there is the text.
theorem writers_agree (value : Value) (mapped : Mapped value) :
    (writeCanonicalJson lib value []).map utf8 = .ok (canonicalJson lib value) ∧
      (writeCanonicalJsonV4 lib value []).map utf8 = .ok (canonicalJson lib value) ∧
      (writeCanonicalJsonV3 lib value []).map utf8 = .ok (canonicalJson lib value) := by
  rw [writeCanonicalJson, writeCanonicalJsonV4, write_by_keys lib value mapped, write_v3 lib value mapped]
  exact ⟨rfl, rfl, rfl⟩

end Writers

end SessionSync.Core
