import SessionSync.Core.Fields
import SessionSync.Storage.Objects
import SessionSync.Lib.Keyed

set_option autoImplicit false

namespace SessionSync.Storage

open SessionSync.Core Checked

-- The keys that a descriptor leaves out of every object, at any depth.
def machineKeysV4 : List String := ["model_provider", "rollout_path", "codex_home"]

mutual
def projectValueV4 : Value → Value
  | .null => .null
  | .bool value => .bool value
  | .number value => .number value
  | .string text => .string text
  | .array values => .array (projectElementsV4 values)
  | .object fields => .object (projectFieldsV4 fields)
def projectElementsV4 : List Value → List Value
  | [] => []
  | value :: rest => projectValueV4 value :: projectElementsV4 rest
def projectFieldsV4 : Fields → Fields
  | [] => []
  | (key, value) :: rest =>
      if key ∈ machineKeysV4 then projectFieldsV4 rest else (key, projectValueV4 value) :: projectFieldsV4 rest
end

def timelineTable : String := "thread_timeline_ledger"

def projectRelatedRecordsV4 (records : RelatedRecords) : Std.ExtTreeMap String (List Value) :=
  (records.tables.filter fun table _ => table ≠ timelineTable).map fun _ rows => rows.map projectValueV4

def storageRefV4 : StorageRef → StorageRefV4
  | .whole object => .whole object
  | .chunked manifest => .chunked manifest

def storageRefV3 : StorageRefV4 → StorageRef
  | .whole object => .whole object
  | .chunked manifest => .chunked manifest

def contentRefFromObjectV4 (object : ContentObject) : Except String ContentRefV4 := do
  let storage ← found object.storage "v4 content object has no physical storage reference"
  return ⟨object.sha256, object.byteLength, storageRefV4 storage, object.mediaType, object.logicalPath⟩

def contentRefsFromObjectsV4 : List ContentObject → Except String (List ContentRefV4)
  | [] => .ok []
  | object :: rest => do
      let content ← contentRefFromObjectV4 object
      let contents ← contentRefsFromObjectsV4 rest
      return content :: contents

def contentObjectFromRefV4 (content : ContentRefV4) : ContentObject :=
  { sha256 := content.logicalSha256
    byteLength := content.byteLength
    mediaType := content.mediaType
    logicalPath := content.logicalPath
    sourcePath := none
    storage := some (storageRefV3 content.storage) }

-- The hint is the logical identity of the workspace, not its path.
def SemanticThreadDescriptorV4.fromBundle (bundle : ThreadBundle) (rollout : ContentRefV4) :
    Except String SemanticThreadDescriptorV4 := do
  ensure (rollout.logicalSha256 = bundle.rollout.sha256 ∧ rollout.byteLength = bundle.rollout.byteLength)
    "v4 rollout reference does not match thread bundle"
  let attachments ← contentRefsFromObjectsV4 bundle.attachments
  return {
    schemaVersion := 4
    normalizationSchemaVersion := 1
    threadId := bundle.threadId
    title := bundle.title
    archived := bundle.archived
    createdAtMs := bundle.createdAtMs
    updatedAtMs := bundle.updatedAtMs
    semanticWorkspace := ⟨bundle.workspace.logicalId, bundle.workspace.logicalId⟩
    rollout := rollout
    relatedRecords := projectRelatedRecordsV4 bundle.relatedRecords
    attachments := attachments }

def localSnapshotSchemaVersion : UInt32 := 1

def SemanticThreadDescriptorV4.intoBundle (descriptor : SemanticThreadDescriptorV4) (overlay : Option LocalThreadOverlayV4) :
    ThreadBundle :=
  { schemaVersion := localSnapshotSchemaVersion
    threadId := descriptor.threadId
    title := descriptor.title
    archived := descriptor.archived
    createdAtMs := descriptor.createdAtMs
    updatedAtMs := descriptor.updatedAtMs
    modelProvider := overlay.bind LocalThreadOverlayV4.observedProvider
    workspace :=
      { logicalId := descriptor.semanticWorkspace.logicalId
        sourcePath := (overlay.bind LocalThreadOverlayV4.localWorkspacePath).or descriptor.semanticWorkspace.canonicalHint }
    rollout := contentObjectFromRefV4 descriptor.rollout
    relatedRecords :=
      { sourceDatabase := overlay.bind fun item => item.sourceDatabaseHints.head?
        tables := descriptor.relatedRecords }
    attachments := descriptor.attachments.map contentObjectFromRefV4 }

def neutralKey (key : String) : Bool := key ∉ machineKeysV4

theorem project_fields (fields : Fields) :
    projectFieldsV4 fields = (fields.filter fun field => neutralKey field.1).map fun field => (field.1, projectValueV4 field.2) := by
  induction fields with
  | nil => rfl
  | cons field rest ih =>
      obtain ⟨key, value⟩ := field
      by_cases machine : key ∈ machineKeysV4
      · rw [projectFieldsV4, if_pos machine, ih, List.filter_cons_of_neg (by simpa [neutralKey] using machine)]
      · rw [projectFieldsV4, if_neg machine, ih, List.filter_cons_of_pos (by simpa [neutralKey] using machine), List.map_cons]

theorem project_field (fields : Fields) (name : String) (neutral : neutralKey name = true) :
    fieldOf (projectFieldsV4 fields) name = (fieldOf fields name).map projectValueV4 := by
  rw [project_fields, field_map, field_filter, if_pos neutral]

theorem project_sorted (fields : Fields) (sorted : KeysSorted fields) : KeysSorted (projectFieldsV4 fields) := by
  rw [project_fields]
  exact map_sorted _ _ (filter_sorted _ _ sorted)

mutual
theorem project_value_formed (value : Value) (formed : WellFormed value) : WellFormed (projectValueV4 value) := by
  cases value with
  | null => trivial
  | bool value => trivial
  | number value => exact formed
  | string text => trivial
  | array values => exact project_elements_formed values formed
  | object fields => exact ⟨project_fields_formed fields formed.1, project_sorted fields formed.2⟩
theorem project_elements_formed (values : List Value) (formed : WellFormedElements values) :
    WellFormedElements (projectElementsV4 values) := by
  cases values with
  | nil => trivial
  | cons value rest => exact ⟨project_value_formed value formed.1, project_elements_formed rest formed.2⟩
theorem project_fields_formed (fields : Fields) (formed : WellFormedFields fields) : WellFormedFields (projectFieldsV4 fields) := by
  match fields with
  | [] => trivial
  | (key, value) :: rest =>
      unfold projectFieldsV4
      split
      · exact project_fields_formed rest formed.2
      · exact ⟨project_value_formed value formed.1, project_fields_formed rest formed.2⟩
end

theorem projected_table (records : RelatedRecords) (table : String) :
    (projectRelatedRecordsV4 records)[table]? =
      if table = timelineTable then none else records.tables[table]?.map fun rows => rows.map projectValueV4 := by
  rw [projectRelatedRecordsV4, Std.ExtTreeMap.getElem?_map, Std.ExtTreeMap.getElem?_filter']
  by_cases timeline : table = timelineTable
  · cases records.tables[table]? <;> simp [timeline]
  · cases records.tables[table]? <;> simp [timeline]

theorem content_refs_back (objects : List ContentObject) (contents : List ContentRefV4)
    (read : contentRefsFromObjectsV4 objects = .ok contents) :
    contents.map contentObjectFromRefV4 = objects.map fun object => { object with sourcePath := none } := by
  induction objects generalizing contents with
  | nil =>
      cases read
      rfl
  | cons object rest ih =>
      simp only [contentRefsFromObjectsV4, contentRefFromObjectV4, bind_ok, found_ok, pure_ok] at read
      obtain ⟨content, ⟨storage, stored, rfl⟩, others, restRead, rfl⟩ := read
      have back : storageRefV3 (storageRefV4 storage) = storage := by cases storage <;> rfl
      rw [List.map_cons, List.map_cons, ih others restRead]
      simp only [contentObjectFromRefV4, back, ← stored]

theorem from_bundle_records (bundle : ThreadBundle) (rollout : ContentRefV4) (descriptor : SemanticThreadDescriptorV4)
    (built : SemanticThreadDescriptorV4.fromBundle bundle rollout = .ok descriptor) :
    descriptor.threadId = bundle.threadId ∧ descriptor.rollout = rollout ∧
      descriptor.semanticWorkspace = ⟨bundle.workspace.logicalId, bundle.workspace.logicalId⟩ ∧
      descriptor.relatedRecords = projectRelatedRecordsV4 bundle.relatedRecords := by
  simp only [SemanticThreadDescriptorV4.fromBundle, bind_ok, ensure_ok, pure_ok] at built
  obtain ⟨_, _, contents, _, rfl⟩ := built
  exact ⟨rfl, rfl, rfl, rfl⟩

end SessionSync.Storage
