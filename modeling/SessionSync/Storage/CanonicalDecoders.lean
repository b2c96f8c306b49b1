import SessionSync.Storage.Encoding
import SessionSync.Storage.ReadBack

set_option autoImplicit false

namespace SessionSync.Storage

open SessionSync.Core Checked

-- Decoders that take exactly the texts of the canonical writer.
noncomputable def readCanonical {α : Type} (lib : Primitives) (encode : α → Value) (good : α → Prop) (bytes : Bytes) :
    Except String α :=
  open Classical in
  if written : ∃ value, good value ∧ canonicalJson lib (encode value) = bytes then .ok written.choose else .error "expected value"

theorem read_canonical {α : Type} (lib : Primitives) (encode : α → Value) (good : α → Prop)
    (injective : ∀ one other, good one → good other → canonicalJson lib (encode one) = canonicalJson lib (encode other) → one = other)
    (value : α) (formed : good value) : readCanonical lib encode good (canonicalJson lib (encode value)) = .ok value := by
  have written : ∃ other, good other ∧ canonicalJson lib (encode other) = canonicalJson lib (encode value) := ⟨value, formed, rfl⟩
  have same := injective _ value written.choose_spec.1 formed written.choose_spec.2
  rw [readCanonical, dif_pos written, same]

def DescriptorReads (descriptor : SemanticThreadDescriptorV4) : Prop :=
  RowsFormed descriptor.relatedRecords ∧ nesting descriptor.toValue ≤ maxNesting

noncomputable def canonicalDecoders (lib : Primitives) : Decoders :=
  { revisionRoot := fun _ => .error "expected value"
    manifest := fun _ => .error "expected value"
    descriptor := readCanonical lib SemanticThreadDescriptorV4.toValue DescriptorReads
    overlay := readCanonical lib SnapshotOverlayV4.toValue SnapshotOverlayV4.Formed
    snapshotRoot := readCanonical lib SnapshotRootV4.toValue fun _ => True }

mutual
theorem reread_same (value : Value) : rereadValue (fun bits => bits) value = value := by
  cases value with
  | null => rfl
  | bool value => rfl
  | number value => cases value <;> rfl
  | string text => rfl
  | array values => rw [rereadValue, reread_elements_same values]
  | object fields => rw [rereadValue, reread_fields_same fields]
theorem reread_elements_same (values : List Value) : rereadElements (fun bits => bits) values = values := by
  cases values with
  | nil => rfl
  | cons value rest => rw [rereadElements, reread_same value, reread_elements_same rest]
theorem reread_fields_same (fields : Fields) : rereadFields (fun bits => bits) fields = fields := by
  match fields with
  | [] => rfl
  | (key, value) :: rest => rw [rereadFields, reread_same value, reread_fields_same rest]
end

theorem read_back_same (descriptor : SemanticThreadDescriptorV4) : descriptor.readBack (fun bits => bits) = descriptor := by
  have rows : (descriptor.relatedRecords.map fun _ rows => rows.map (rereadValue fun bits => bits)) = descriptor.relatedRecords := by
    refine Std.ExtTreeMap.ext_getElem? fun table => ?_
    rw [Std.ExtTreeMap.getElem?_map]
    cases descriptor.relatedRecords[table]? with
    | none => rfl
    | some rows => exact congrArg some (List.map_id'' reread_same rows)
  rw [SemanticThreadDescriptorV4.readBack, rows]

theorem canonical_reads_back (lib : Primitives) (floats : PrintsFloats lib) :
    ReadsBack lib (canonicalDecoders lib) fun bits => bits where
  finite := fun _ held => held
  descriptor := by
    intro descriptor formed shallow
    rw [read_back_same]
    refine read_canonical lib _ DescriptorReads (fun one other left right same => ?_) descriptor ⟨formed, shallow⟩
    exact descriptor_text_injective lib floats one other left.1 right.1 same
  nested := by
    intro descriptor formed deep
    refine ⟨_, dif_neg ?_⟩
    rintro ⟨other, ⟨rows, shallow⟩, same⟩
    have equal := descriptor_text_injective lib floats other descriptor rows formed same
    exact absurd shallow (equal ▸ Nat.not_le_of_lt deep)
  overlay := by
    intro overlay plain
    refine read_canonical lib _ _ (overlay_text_injective lib floats) overlay fun id thread held key value found => ?_
    rw [plain id thread held, Std.ExtTreeMap.getElem?_empty] at found
    cases found
  snapshotRoot := fun root =>
    read_canonical lib _ _ (fun one other _ _ same => snapshot_root_text_injective lib floats one other same) root trivial

end SessionSync.Storage
