import SessionSync.Storage.Encoding
import SessionSync.Core.Sha256

set_option autoImplicit false

namespace SessionSync.Storage

open SessionSync.Core Checked

-- The columns in which a machine writes down where it keeps a thread.
def machineColumns : List String := "cwd" :: machineKeysV4

def withoutMachineColumns : Value → Value
  | .object row => .object (row.filter fun field => decide (field.1 ∉ machineColumns))
  | other => other

def withoutMachine (bundle : ThreadBundle) : ThreadBundle :=
  { bundle with
    modelProvider := none
    workspace := { bundle.workspace with sourcePath := none }
    rollout := { bundle.rollout with sourcePath := none }
    attachments := bundle.attachments.map fun object => { object with sourcePath := none }
    relatedRecords :=
      { sourceDatabase := none
        tables := bundle.relatedRecords.tables.map fun _ rows => rows.map withoutMachineColumns } }

-- Equal but for what belongs to a machine.
def MachineAlike (left right : ThreadBundle) : Prop := withoutMachine left = withoutMachine right

def cwdColumn : Value → Option Value
  | .object row => (fieldOf row "cwd").map projectValueV4
  | _ => none

-- The one machine column that the projection keeps.
def CwdAlike (left right : ThreadBundle) : Prop :=
  ∀ (table : String) (rows others : List Value), table ≠ timelineTable → left.relatedRecords.tables[table]? = some rows →
    right.relatedRecords.tables[table]? = some others → rows.map cwdColumn = others.map cwdColumn

theorem machine_column_cases (name : String) (kept : neutralKey name = true) (other : name ≠ "cwd") : name ∉ machineColumns := by
  simp only [neutralKey, decide_eq_true_eq] at kept
  exact fun member => (List.mem_cons.mp member).elim other kept

theorem row_alike (left right : Value) (leftFormed : WellFormed left) (rightFormed : WellFormed right)
    (alike : withoutMachineColumns left = withoutMachineColumns right) :
    projectValueV4 left = projectValueV4 right ↔ cwdColumn left = cwdColumn right := by
  have cwd : neutralKey "cwd" = true := by decide +kernel
  cases left with
  | object row =>
      cases right with
      | object other =>
          have rest := congrArg fieldOf (Value.object.inj alike)
          simp only [projectValueV4, cwdColumn, Value.object.injEq]
          constructor
          · intro same
            rw [← project_field row "cwd" cwd, ← project_field other "cwd" cwd, same]
          · intro same
            refine fields_ext _ _ (project_sorted row leftFormed.2) (project_sorted other rightFormed.2) fun name => ?_
            by_cases path : name = "cwd"
            · rw [path, project_field row "cwd" cwd, project_field other "cwd" cwd, same]
            · by_cases kept : neutralKey name = true
              · have looked := congrFun rest name
                rw [field_filter fun key => decide (key ∉ machineColumns), field_filter fun key => decide (key ∉ machineColumns),
                  if_pos (decide_eq_true (machine_column_cases name kept path)),
                  if_pos (decide_eq_true (machine_column_cases name kept path))] at looked
                rw [project_field row name kept, project_field other name kept, looked]
              · rw [project_fields, project_fields, field_map, field_map, field_filter, field_filter, if_neg kept, if_neg kept]
      | null | bool | number | string | array => cases alike
  | null | bool | number | string | array => cases right <;> cases alike; simp [cwdColumn]

theorem rows_alike (left right : List Value) (leftFormed : ∀ row ∈ left, WellFormed row) (rightFormed : ∀ row ∈ right, WellFormed row)
    (alike : left.map withoutMachineColumns = right.map withoutMachineColumns) :
    left.map projectValueV4 = right.map projectValueV4 ↔ left.map cwdColumn = right.map cwdColumn := by
  induction left generalizing right with
  | nil =>
      rw [List.map_nil, eq_comm, List.map_eq_nil_iff] at alike
      rw [alike]
      exact iff_of_true rfl rfl
  | cons row rest ih =>
      cases right with
      | nil => cases alike
      | cons other others =>
          obtain ⟨first, tails⟩ := List.cons.inj alike
          simp only [List.map_cons, List.cons.injEq]
          exact and_congr (row_alike row other (leftFormed row List.mem_cons_self) (rightFormed other List.mem_cons_self) first)
            (ih others (fun value member => leftFormed value (List.mem_cons_of_mem _ member))
              (fun value member => rightFormed value (List.mem_cons_of_mem _ member)) tails)

section Alike

variable {left right : ThreadBundle}

theorem alike_rows (alike : MachineAlike left right) (table : String) :
    left.relatedRecords.tables[table]?.map (List.map withoutMachineColumns) =
      right.relatedRecords.tables[table]?.map (List.map withoutMachineColumns) := by
  have tables := congrArg (fun bundle : ThreadBundle => bundle.relatedRecords.tables[table]?) alike
  simpa only [withoutMachine, Std.ExtTreeMap.getElem?_map] using tables

theorem projected_alike (alike : MachineAlike left right) (leftFormed : RowsFormed left.relatedRecords.tables)
    (rightFormed : RowsFormed right.relatedRecords.tables) :
    projectRelatedRecordsV4 left.relatedRecords = projectRelatedRecordsV4 right.relatedRecords ↔ CwdAlike left right := by
  have rows := fun table rows others (held : left.relatedRecords.tables[table]? = some rows)
      (found : right.relatedRecords.tables[table]? = some others) =>
    rows_alike rows others (leftFormed table rows held) (rightFormed table others found)
      (Option.some.inj (by simpa only [held, found, Option.map_some] using alike_rows alike table))
  constructor
  · intro same table one other neutral held found
    have looked := congrArg (fun tables : Std.ExtTreeMap String (List Value) => tables[table]?) same
    simp only [projected_table, if_neg neutral, held, found, Option.map_some, Option.some.injEq] at looked
    exact (rows table one other held found).mp looked
  · intro cwd
    refine Std.ExtTreeMap.ext_getElem? fun table => ?_
    rw [projected_table, projected_table]
    by_cases timeline : table = timelineTable
    · rw [if_pos timeline, if_pos timeline]
    · rw [if_neg timeline, if_neg timeline]
      have shape := alike_rows alike table
      cases held : left.relatedRecords.tables[table]? with
      | none =>
          rw [held] at shape
          rw [Option.map_none, eq_comm, Option.map_eq_none_iff] at shape
          rw [shape]
      | some one =>
          cases found : right.relatedRecords.tables[table]? with
          | none =>
              rw [held, found] at shape
              cases shape
          | some other =>
              rw [Option.map_some, Option.map_some, (rows table one other held found).mpr (cwd table one other timeline held found)]

end Alike

theorem content_refs_without (objects : List ContentObject) :
    contentRefsFromObjectsV4 (objects.map fun object => { object with sourcePath := none }) = contentRefsFromObjectsV4 objects := by
  induction objects with
  | nil => rfl
  | cons object rest ih => simp only [List.map_cons, contentRefsFromObjectsV4, ih, contentRefFromObjectV4]

-- What a machine wrote down reaches the descriptor through the rows alone.
theorem from_bundle_without (bundle : ThreadBundle) (rollout : ContentRefV4) (descriptor : SemanticThreadDescriptorV4) :
    SemanticThreadDescriptorV4.fromBundle bundle rollout = .ok descriptor ↔
      descriptor.relatedRecords = projectRelatedRecordsV4 bundle.relatedRecords ∧
        SemanticThreadDescriptorV4.fromBundle (withoutMachine bundle) rollout =
          .ok { descriptor with relatedRecords := projectRelatedRecordsV4 (withoutMachine bundle).relatedRecords } := by
  have attachments : contentRefsFromObjectsV4 (withoutMachine bundle).attachments = contentRefsFromObjectsV4 bundle.attachments :=
    content_refs_without bundle.attachments
  simp only [SemanticThreadDescriptorV4.fromBundle, bind_ok, ensure_ok, pure_ok, attachments]
  constructor
  · rintro ⟨_, matched, contents, read, rfl⟩
    exact ⟨rfl, (), matched, contents, read, rfl⟩
  · rintro ⟨rows, _, matched, contents, read, same⟩
    refine ⟨(), matched, contents, read, ?_⟩
    simp only [withoutMachine] at same
    cases descriptor
    simp only [SemanticThreadDescriptorV4.mk.injEq] at same rows ⊢
    simp only [same, rows, and_self]

theorem from_bundle_alike (left right : ThreadBundle) (alike : MachineAlike left right) (rollout : ContentRefV4)
    (descriptor : SemanticThreadDescriptorV4) (built : SemanticThreadDescriptorV4.fromBundle left rollout = .ok descriptor) :
    SemanticThreadDescriptorV4.fromBundle right rollout =
      .ok { descriptor with relatedRecords := projectRelatedRecordsV4 right.relatedRecords } := by
  have neutral := ((from_bundle_without left rollout descriptor).mp built).2
  unfold MachineAlike at alike
  rw [alike] at neutral
  exact (from_bundle_without right rollout _).mpr ⟨rfl, neutral⟩

theorem built_rows (bundle : ThreadBundle) (rollout : ContentRefV4) (descriptor : SemanticThreadDescriptorV4)
    (built : SemanticThreadDescriptorV4.fromBundle bundle rollout = .ok descriptor) :
    descriptor.relatedRecords = projectRelatedRecordsV4 bundle.relatedRecords :=
      ((from_bundle_without bundle rollout descriptor).mp built).1

theorem alike_text_iff (lib : Primitives) (floats : PrintsFloats lib) (left right : ThreadBundle) (alike : MachineAlike left right)
    (leftFormed : RowsFormed left.relatedRecords.tables) (rightFormed : RowsFormed right.relatedRecords.tables)
    (rollout : ContentRefV4) (descriptor other : SemanticThreadDescriptorV4)
    (built : SemanticThreadDescriptorV4.fromBundle left rollout = .ok descriptor)
    (second : SemanticThreadDescriptorV4.fromBundle right rollout = .ok other) :
    canonicalJson lib other.toValue = canonicalJson lib descriptor.toValue ↔ CwdAlike left right := by
  have rows := built_rows left rollout descriptor built
  have shape := from_bundle_alike left right alike rollout descriptor built
  rw [second, Except.ok.injEq] at shape
  subst shape
  rw [← projected_alike alike leftFormed rightFormed, ← rows]
  constructor
  · intro same
    have equal := descriptor_text_injective lib floats _ descriptor (project_rows_formed _ rightFormed)
      (rows ▸ project_rows_formed _ leftFormed) same
    exact (congrArg SemanticThreadDescriptorV4.relatedRecords equal).symm
  · intro same
    rw [← same]

theorem descriptor_neutral_iff (lib : Primitives) (floats : PrintsFloats lib) (left right : ThreadBundle)
    (alike : MachineAlike left right) (leftFormed : RowsFormed left.relatedRecords.tables)
    (rightFormed : RowsFormed right.relatedRecords.tables) (rollout : ContentRefV4) (descriptor : SemanticThreadDescriptorV4)
    (built : SemanticThreadDescriptorV4.fromBundle left rollout = .ok descriptor) :
    (∃ other, SemanticThreadDescriptorV4.fromBundle right rollout = .ok other ∧
      canonicalJson lib other.toValue = canonicalJson lib descriptor.toValue) ↔ CwdAlike left right := by
  have second := from_bundle_alike left right alike rollout descriptor built
  have text := alike_text_iff lib floats left right alike leftFormed rightFormed rollout descriptor _ built second
  constructor
  · rintro ⟨other, run, same⟩
    rw [second, Except.ok.injEq] at run
    exact text.mp (run ▸ same)
  · exact fun cwd => ⟨_, second, text.mpr cwd⟩

section Sample

def sampleRow (cwd provider : String) : Value :=
  .object [("cwd", .string cwd), ("id", .string "thread"), ("model_provider", .string provider)]

def sampleDigest : String := digestBytes sampleLib []

def sampleBundle (cwd provider : String) : ThreadBundle :=
  { schemaVersion := 1
    threadId := "thread"
    title := "Title"
    archived := false
    createdAtMs := none
    updatedAtMs := some 7
    modelProvider := some provider
    workspace := ⟨some "work", some cwd⟩
    rollout := ⟨sampleDigest, 0, "application/x-ndjson", none, some cwd, some (.chunked sampleDigest)⟩
    relatedRecords := ⟨some cwd, (∅ : Std.ExtTreeMap String (List Value)).insert "threads" [sampleRow cwd provider]⟩
    attachments := [] }

def sampleContent : ContentRefV4 := ⟨sampleDigest, 0, .chunked sampleDigest, "application/x-ndjson", none⟩

theorem sample_tables (rows : List Value) (table : String) :
    ((∅ : Std.ExtTreeMap String (List Value)).insert "threads" rows)[table]? = if table = "threads" then some rows else none := by
  simp only [Keyed.lookup_insert, Std.ExtTreeMap.getElem?_empty]

theorem sample_row_formed (cwd provider : String) : WellFormed (sampleRow cwd provider) := by
  refine ⟨⟨trivial, trivial, trivial, trivial⟩, ?_⟩
  simp only [List.pairwise_cons, List.mem_cons, List.not_mem_nil, or_false, forall_eq_or_imp, forall_eq, String.reduceLT, and_self,
    false_imp_iff, implies_true, List.Pairwise.nil]

theorem sample_rows_formed (cwd provider : String) : RowsFormed (sampleBundle cwd provider).relatedRecords.tables := by
  intro table rows held row member
  rw [sampleBundle, sample_tables] at held
  split at held
  · rw [← Option.some.inj held, List.mem_singleton] at member
    exact member ▸ sample_row_formed cwd provider
  · cases held

theorem sample_alike (cwd path provider other : String) : MachineAlike (sampleBundle cwd provider) (sampleBundle path other) := by
  have rows : ∀ cwd provider, (sampleRow cwd provider :: []).map withoutMachineColumns = [.object [("id", .string "thread")]] := by
    intro cwd provider
    simp [sampleRow, withoutMachineColumns, machineColumns, machineKeysV4]
  have tables : (withoutMachine (sampleBundle cwd provider)).relatedRecords.tables =
      (withoutMachine (sampleBundle path other)).relatedRecords.tables := by
    refine Std.ExtTreeMap.ext_getElem? fun table => ?_
    simp only [withoutMachine, sampleBundle, Std.ExtTreeMap.getElem?_map, sample_tables]
    split <;> simp only [Option.map_some, Option.map_none, rows]
  simp only [withoutMachine, sampleBundle] at tables
  simp only [MachineAlike, withoutMachine, sampleBundle, tables]

theorem sample_built (cwd provider : String) :
    ∃ descriptor, SemanticThreadDescriptorV4.fromBundle (sampleBundle cwd provider) sampleContent = .ok descriptor :=
  ⟨_, ensured _ _ _ ⟨rfl, rfl⟩⟩

end Sample

-- Two machines with different providers that keep the thread at the same path.
theorem providers_build_one_descriptor : ∃ one two,
    SemanticThreadDescriptorV4.fromBundle (sampleBundle "/work" "openai") sampleContent = .ok one ∧
      SemanticThreadDescriptorV4.fromBundle (sampleBundle "/work" "custom") sampleContent = .ok two ∧
      canonicalJson sampleLib two.toValue = canonicalJson sampleLib one.toValue := by
  obtain ⟨one, built⟩ := sample_built "/work" "openai"
  have neutral := descriptor_neutral_iff sampleLib sample_floats _ _ (sample_alike "/work" "/work" "openai" "custom")
    (sample_rows_formed _ _) (sample_rows_formed _ _) sampleContent one built
  obtain ⟨two, second, text⟩ := neutral.mpr fun table rows others _ held found => by
    simp only [sampleBundle, sample_tables] at held found
    split at held
    · rw [if_pos (by assumption)] at found
      rw [← Option.some.inj held, ← Option.some.inj found]
      rfl
    · cases held
  exact ⟨one, two, built, second, text⟩

-- The same thread at two paths.
theorem paths_build_two_descriptors : MachineAlike (sampleBundle "C:\\work" "openai") (sampleBundle "/Users/me/work" "openai") ∧
    ∃ one two, SemanticThreadDescriptorV4.fromBundle (sampleBundle "C:\\work" "openai") sampleContent = .ok one ∧
      SemanticThreadDescriptorV4.fromBundle (sampleBundle "/Users/me/work" "openai") sampleContent = .ok two ∧
      canonicalJson sampleLib two.toValue ≠ canonicalJson sampleLib one.toValue := by
  have alike := sample_alike "C:\\work" "/Users/me/work" "openai" "openai"
  obtain ⟨one, built⟩ := sample_built "C:\\work" "openai"
  obtain ⟨two, second⟩ := sample_built "/Users/me/work" "openai"
  refine ⟨alike, one, two, built, second, fun same => ?_⟩
  have cwd :=
    (alike_text_iff sampleLib sample_floats _ _ alike (sample_rows_formed _ _) (sample_rows_formed _ _) sampleContent one two
    built second).mp same
  have columns := cwd "threads" _ _ (by decide +kernel) (by rw [sampleBundle, sample_tables, if_pos rfl])
    (by rw [sampleBundle, sample_tables, if_pos rfl])
  simp [cwdColumn, sampleRow, field_cons, projectValueV4] at columns

end SessionSync.Storage
