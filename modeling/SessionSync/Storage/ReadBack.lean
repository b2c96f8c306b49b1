import SessionSync.Storage.Snapshots
import SessionSync.Storage.StoredView

set_option autoImplicit false

namespace SessionSync.Storage

open SessionSync.Core Checked

mutual
def nesting : Value → Nat
  | .null => 0
  | .bool _ => 0
  | .number _ => 0
  | .string _ => 0
  | .array values => nestingElements values + 1
  | .object fields => nestingFields fields + 1
def nestingElements : List Value → Nat
  | [] => 0
  | value :: rest => max (nesting value) (nestingElements rest)
def nestingFields : Fields → Nat
  | [] => 0
  | (_, value) :: rest => max (nesting value) (nestingFields rest)
end

-- serde_json gives up at 128 levels of arrays and objects.
def maxNesting : Nat := 127

variable (lib : Primitives) (serde : Decoders) (reread : UInt64 → UInt64)

-- What serde_json promises of a text that it printed itself.
structure ReadsBack : Prop where
  finite : ∀ bits, isFinite bits = true → isFinite (reread bits) = true
  descriptor : ∀ descriptor : SemanticThreadDescriptorV4, RowsFormed descriptor.relatedRecords →
    nesting descriptor.toValue ≤ maxNesting → serde.descriptor (canonicalJson lib descriptor.toValue) =
      .ok (descriptor.readBack reread)
  nested : ∀ descriptor : SemanticThreadDescriptorV4, RowsFormed descriptor.relatedRecords →
    maxNesting < nesting descriptor.toValue → ∃ error, serde.descriptor (canonicalJson lib descriptor.toValue) = .error error
  overlay : ∀ overlay : SnapshotOverlayV4, (∀ (id : String) (thread : LocalThreadOverlayV4),
    overlay.threads[id]? = some thread → thread.localFields = ∅) → serde.overlay (canonicalJson lib overlay.toValue) = .ok overlay
  snapshotRoot : ∀ root : SnapshotRootV4, serde.snapshotRoot (canonicalJson lib root.toValue) = .ok root

-- The rows leave room for the levels that a descriptor puts around them.
def Shallow (bundle : ThreadBundle) : Prop :=
  ∀ (table : String) (rows : List Value), table ≠ timelineTable → bundle.relatedRecords.tables[table]? = some rows →
    ∀ row ∈ rows, nesting (projectValueV4 row) + 3 ≤ maxNesting

-- A thread and the reference it was stored under.
def StoredAs (files : Files) (contents : Contents) (thread : ThreadBundle) (reference : ThreadRefV4) : Prop :=
  ∃ content descriptor, contents[thread.threadId]? = some content ∧
    SemanticThreadDescriptorV4.fromBundle thread content = .ok descriptor ∧ descriptor.validate = .ok () ∧
    reference.threadId = thread.threadId ∧
    readObject lib files .thread reference.descriptorSha256 = .ok (canonicalJson lib descriptor.toValue)

-- A thread and what a load makes of it.
def LoadedAs (overlay : SnapshotOverlayV4) (contents : Contents) (thread after : ThreadBundle) : Prop :=
  ∃ content descriptor, contents[thread.threadId]? = some content ∧
    SemanticThreadDescriptorV4.fromBundle thread content = .ok descriptor ∧
    after = (descriptor.readBack reread).intoBundle overlay.threads[thread.threadId]?

theorem nesting_elements_le (values : List Value) (bound : Nat) : nestingElements values ≤ bound ↔
    ∀ value ∈ values, nesting value ≤ bound := by
  induction values with
  | nil => simp [nestingElements]
  | cons value rest ih => rw [nestingElements, Nat.max_le, ih, List.forall_mem_cons]

theorem nesting_fields_le (fields : Fields) (bound : Nat) : nestingFields fields ≤ bound ↔
    ∀ field ∈ fields, nesting field.2 ≤ bound := by
  induction fields with
  | nil => simp [nestingFields]
  | cons field rest ih => rw [nestingFields, Nat.max_le, ih, List.forall_mem_cons]

theorem nesting_option {α : Type} (encode : α → Value) (flat : ∀ value, nesting (encode value) = 0) (value : Option α) :
    nesting (Value.option encode value) = 0 := by
  cases value with
  | none => rfl
  | some held => exact flat held

theorem nesting_int (value : Int64) : nesting (Value.int value) = 0 := by
  unfold Value.int
  split <;> rfl

theorem nesting_content (content : ContentRefV4) : nesting content.toValue = 2 := by
  have path := nesting_option Value.string (fun _ => rfl) content.logicalPath
  obtain ⟨_, _, storage, _, _⟩ := content
  cases storage <;> simp [ContentRefV4.toValue, StorageRefV4.toValue, nesting, nestingFields, Value.nat] at path ⊢ <;> omega

theorem descriptor_nesting (descriptor : SemanticThreadDescriptorV4) :
    nesting descriptor.toValue ≤ maxNesting ↔ ∀ (table : String) (rows : List Value),
      descriptor.relatedRecords[table]? = some rows → ∀ row ∈ rows, nesting row + 3 ≤ maxNesting := by
  have fields : nesting descriptor.toValue ≤ maxNesting ↔
      nesting (.object (descriptor.relatedRecords.toList.map fun table => (table.1, .array table.2))) + 1 ≤ maxNesting := by
    have created := nesting_option Value.int nesting_int descriptor.createdAtMs
    have updated := nesting_option Value.int nesting_int descriptor.updatedAtMs
    have logical := nesting_option Value.string (fun _ => rfl) descriptor.semanticWorkspace.logicalId
    have hint := nesting_option Value.string (fun _ => rfl) descriptor.semanticWorkspace.canonicalHint
    have attachments : nestingElements (descriptor.attachments.map ContentRefV4.toValue) ≤ 2 := by
      refine (nesting_elements_le _ _).mpr fun value member => ?_
      obtain ⟨content, _, rfl⟩ := List.mem_map.mp member
      exact (nesting_content content).le
    rw [SemanticThreadDescriptorV4.toValue]
    generalize Value.object (descriptor.relatedRecords.toList.map fun table => (table.1, .array table.2)) = tables
    simp only [nesting, nestingFields, Value.nat, created, updated, SemanticWorkspaceV4.toValue, logical, hint,
      nesting_content, maxNesting]
    omega
  rw [fields]
  have inner : ∀ bound, nesting (.object (descriptor.relatedRecords.toList.map fun table => (table.1, .array table.2))) ≤ bound + 2 ↔
      ∀ (table : String) (rows : List Value), descriptor.relatedRecords[table]? = some rows → ∀ row ∈ rows, nesting row ≤ bound := by
    intro bound
    rw [nesting, Nat.succ_le_succ_iff, nesting_fields_le]
    constructor
    · intro all table rows held row member
      have listed := List.mem_map_of_mem (f := fun table : String × List Value => (table.1, Value.array table.2))
        (Std.ExtTreeMap.mem_toList_iff_getElem?_eq_some.mpr held)
      have outer := all _ listed
      rw [nesting, Nat.succ_le_succ_iff, nesting_elements_le] at outer
      exact outer row member
    · intro all field member
      obtain ⟨table, listed, rfl⟩ := List.mem_map.mp member
      rw [nesting, Nat.succ_le_succ_iff, nesting_elements_le]
      exact all table.1 table.2 (Std.ExtTreeMap.mem_toList_iff_getElem?_eq_some.mp listed)
  have split := inner 124
  simp only [maxNesting] at split ⊢
  refine Iff.trans ⟨fun small => by omega, fun small => by omega⟩ (split.trans ?_)
  refine forall_congr' fun table => forall_congr' fun rows => forall_congr' fun _ => forall_congr' fun row =>
    forall_congr' fun _ => ?_
  omega

theorem built_nesting (bundle : ThreadBundle) (content : ContentRefV4) (descriptor : SemanticThreadDescriptorV4)
    (built : SemanticThreadDescriptorV4.fromBundle bundle content = .ok descriptor) :
    nesting descriptor.toValue ≤ maxNesting ↔ Shallow bundle := by
  simp only [SemanticThreadDescriptorV4.fromBundle, bind_ok, ensure_ok, pure_ok] at built
  obtain ⟨_, _, contents, _, rfl⟩ := built
  rw [descriptor_nesting]
  simp only [projected_table]
  constructor
  · intro all table rows other held row member
    exact all table _ (by rw [if_neg other, held, Option.map_some]) _ (List.mem_map_of_mem member)
  · intro shallow table rows held row member
    split at held
    · cases held
    · rename_i other
      obtain ⟨source, found, rfl⟩ := Option.map_eq_some_iff.mp held
      obtain ⟨before, inside, rfl⟩ := List.mem_map.mp member
      exact shallow table source other found before inside

variable {reread} in
theorem validate_read_back (descriptor : SemanticThreadDescriptorV4) (valid : descriptor.validate = .ok ()) :
    (descriptor.readBack reread).validate = .ok () := by
  simp only [SemanticThreadDescriptorV4.validate, bind_ok, ensure_ok] at valid ⊢
  simpa only [SemanticThreadDescriptorV4.readBack, SemanticThreadDescriptorV4.contents, Std.ExtTreeMap.contains_map] using valid

mutual
theorem reread_formed (finite : ∀ bits, isFinite bits = true → isFinite (reread bits) = true) (value : Value)
    (formed : WellFormed value) : WellFormed (rereadValue reread value) := by
  cases value with
  | null => trivial
  | bool value => trivial
  | number value =>
      cases value with
      | posInt value => trivial
      | negInt value => exact formed
      | float bits => exact finite bits formed
  | string text => trivial
  | array values => exact reread_elements_formed finite values formed
  | object fields =>
      refine ⟨reread_fields_formed finite fields formed.1, ?_⟩
      rw [reread_fields]
      exact map_sorted _ _ formed.2
theorem reread_elements_formed (finite : ∀ bits, isFinite bits = true → isFinite (reread bits) = true) (values : List Value)
    (formed : WellFormedElements values) : WellFormedElements (rereadElements reread values) := by
  cases values with
  | nil => trivial
  | cons value rest => exact ⟨reread_formed finite value formed.1, reread_elements_formed finite rest formed.2⟩
theorem reread_fields_formed (finite : ∀ bits, isFinite bits = true → isFinite (reread bits) = true) (fields : Fields)
    (formed : WellFormedFields fields) : WellFormedFields (rereadFields reread fields) := by
  match fields with
  | [] => trivial
  | (key, value) :: rest => exact ⟨reread_formed finite value formed.1, reread_fields_formed finite rest formed.2⟩
end

theorem read_back_formed (finite : ∀ bits, isFinite bits = true → isFinite (reread bits) = true)
    (descriptor : SemanticThreadDescriptorV4) (formed : RowsFormed descriptor.relatedRecords) :
    RowsFormed (descriptor.readBack reread).relatedRecords := by
  intro table rows held row member
  rw [SemanticThreadDescriptorV4.readBack, Std.ExtTreeMap.getElem?_map] at held
  obtain ⟨source, found, rfl⟩ := Option.map_eq_some_iff.mp held
  obtain ⟨before, inside, rfl⟩ := List.mem_map.mp member
  exact reread_formed reread finite before (formed table source found before inside)

-- A reference loads to what was stored under it, or not at all.
theorem load_stored_iff (reads : ReadsBack lib serde reread) (files : Files) (thread : ThreadBundle) (content : ContentRefV4)
    (formed : RowsFormed thread.relatedRecords.tables) (descriptor loaded : SemanticThreadDescriptorV4) (reference : ThreadRefV4)
    (built : SemanticThreadDescriptorV4.fromBundle thread content = .ok descriptor) (valid : descriptor.validate = .ok ())
    (named : reference.threadId = thread.threadId)
    (held : readObject lib files .thread reference.descriptorSha256 = .ok (canonicalJson lib descriptor.toValue)) :
    loadDescriptor lib serde files reference = .ok loaded ↔ Shallow thread ∧ loaded = descriptor.readBack reread := by
  have rows : RowsFormed descriptor.relatedRecords := by
    rw [(from_bundle_records thread content descriptor built).2.2.2]
    exact project_rows_formed _ formed
  have known := ((read_object_ok lib files .thread _ _).mp held).1
  have id : (descriptor.readBack reread).threadId = reference.threadId := by
    rw [named]
    exact (from_bundle_records thread content descriptor built).1
  rw [← built_nesting thread content descriptor built]
  simp only [loadDescriptor, validateSha256V4, bind_ok, ensure_ok, pure_ok, read_json_ok]
  constructor
  · rintro ⟨_, _, read, ⟨bytes, found, decoded⟩, _, _, _, _, rfl⟩
    rw [held, Except.ok.injEq] at found
    subst found
    by_cases small : nesting descriptor.toValue ≤ maxNesting
    · rw [reads.descriptor descriptor rows small, Except.ok.injEq] at decoded
      exact ⟨small, decoded.symm⟩
    · obtain ⟨error, refused⟩ := reads.nested descriptor rows (Nat.lt_of_not_le small)
      rw [refused] at decoded
      cases decoded
  · rintro ⟨small, rfl⟩
    exact ⟨(), known, _, ⟨_, held, reads.descriptor descriptor rows small⟩, (), validate_read_back descriptor valid, (), id, rfl⟩

end SessionSync.Storage
