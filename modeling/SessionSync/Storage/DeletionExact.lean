import SessionSync.Storage.Deletion

set_option autoImplicit false

namespace SessionSync.Storage

open SessionSync.Core Checked Rollout

section Exact

variable (codec : DeletionCodec)

-- A manifest of the repository, and the objects below it.
structure Manifest (repository : LocalRepository) (name : String) (root : SnapshotRootV4)
    (objects : List StorageObjectRefV4) : Prop where
  stored : ∃ bytes, repository.snapshots[name]? = some bytes ∧ codec.serde.snapshotRoot bytes = .ok root
  reads : snapshotObjects codec repository root = .ok objects
  distinct : objects.Nodup

theorem listed_item (repository : LocalRepository) (entries : List (String × Bytes)) (items : List LocalSnapshotListItem)
    (run : listItems codec.toLocalCodec repository entries = .ok items) (item : LocalSnapshotListItem) (member : item ∈ items) :
    ∃ entry ∈ entries, listItem codec.toLocalCodec repository entry = .ok item := by
  induction entries generalizing items with
  | nil =>
      cases run
      cases member
  | cons entry rest ih =>
      simp only [listItems, bind_ok, pure_ok] at run
      obtain ⟨first, one, others, later, rfl⟩ := run
      rcases List.mem_cons.mp member with rfl | member
      · exact ⟨entry, List.mem_cons_self, one⟩
      · obtain ⟨found, inside, made⟩ := ih others later member
        exact ⟨found, List.mem_cons_of_mem _ inside, made⟩

theorem item_objects (repository : LocalRepository) (name : String) (bytes : Bytes) (item : LocalSnapshotListItem)
    (run : listItem codec.toLocalCodec repository (name, bytes) = .ok item) :
    ∃ root objects, codec.serde.snapshotRoot bytes = .ok root ∧ snapshotObjects codec repository root = .ok objects ∧
      item.snapshotId = root.snapshotId ∧ item.manifest = name ∧ item.objectCount = objects.length ∧
      item.physicalReferencedBytes.toNat = totalBytes objects := by
  simp only [listItem, bind_ok, pure_ok, Prod.exists] at run
  obtain ⟨root, decoded, _, _, listed, lengths, threads, _, _, overlay, file, total, summed, _, _, rfl⟩ := run
  have objects : snapshotObjects codec repository root =
      .ok (⟨.snapshotOverlay, root.overlaySha256, fileLength overlay⟩ :: listed.dedup) := by
    simp only [snapshotObjects, bind_ok, pure_ok, Prod.exists]
    exact ⟨listed, lengths, threads, overlay, file, rfl⟩
  refine ⟨root, _, decoded, objects, rfl, rfl, by rw [List.length_cons], ?_⟩
  have sum := checked_total _ _ _ _ summed
  rw [List.map_map] at sum
  exact sum

theorem planned_target (state : DeletionRepository) (snapshotId : String) (plan : SnapshotDeletionPlan)
    (run : planSnapshotDeletionV4 codec state snapshotId = .ok plan) :
    ∃ name root objects, Manifest codec state.repository name root objects ∧ root.snapshotId = snapshotId ∧
      plan.protectedByOperations = [] ∧ plan.sharedObjectCount = 0 ∧ plan.exclusiveObjectCount = objects.length ∧
      plan.estimatedReclaimableBytes.toNat = totalBytes objects := by
  simp only [planSnapshotDeletionV4, bind_ok, pure_ok, found_ok] at run
  obtain ⟨_, _, snapshots, listed, target, chosen, rfl⟩ := run
  simp only [listLocalSnapshots, bind_ok, pure_ok] at listed
  obtain ⟨items, made, rfl⟩ := listed
  have member := List.mem_of_find?_eq_some chosen
  rw [List.mem_insertionSort] at member
  obtain ⟨⟨name, bytes⟩, stored, one⟩ := listed_item codec _ _ _ made target member
  obtain ⟨root, objects, decoded, reads, sameId, _, count, bytesSum⟩ := item_objects codec _ _ _ _ one
  have named : target.snapshotId = snapshotId := by simpa using List.find?_some chosen
  exact ⟨name, root, objects,
    ⟨⟨bytes, Std.ExtTreeMap.mem_toList_iff_getElem?_eq_some.mp stored, decoded⟩, reads, snapshot_objects_distinct codec _ _ _ reads⟩,
    sameId.symm.trans named, rfl, rfl, count, bytesSum⟩

-- What a plan promises of a snapshot with these objects.
structure ExactPlan (state : DeletionRepository) (snapshotId : String) (objects : List StorageObjectRefV4)
    (plan : SnapshotDeletionPlan) : Prop where
  lists : ∀ operation, ProtectedBy codec state snapshotId operation → operation ∈ plan.protectedByOperations
  refuses : ∀ operation, ProtectedBy codec state snapshotId operation → ∀ trash,
    (trashLocalSnapshot codec trash state plan).1 ≠ .ok () ∧ (trashLocalSnapshot codec trash state plan).2 = state
  counts : plan.sharedObjectCount + plan.exclusiveObjectCount = objects.length
  reclaims : plan.estimatedReclaimableBytes.toNat =
    totalBytes (objects.filter fun object => object ∉ otherObjects codec state.repository snapshotId)

theorem total_split (keep : StorageObjectRefV4 → Bool) (objects : List StorageObjectRefV4) :
    totalBytes objects = totalBytes (objects.filter keep) + totalBytes (objects.filter fun object => !keep object) := by
  induction objects with
  | nil => rfl
  | cons object rest ih =>
      unfold totalBytes at ih ⊢
      cases kept : keep object with
      | true =>
          simp only [List.filter_cons, kept, Bool.not_true, Bool.false_eq_true, if_true, if_false, List.map_cons, List.sum_cons, ih]
          omega
      | false =>
          simp only [List.filter_cons, kept, Bool.not_false, Bool.false_eq_true, if_true, if_false, List.map_cons, List.sum_cons, ih]
          omega

theorem exact_plan_iff (state : DeletionRepository) (snapshotId : String) (objects : List StorageObjectRefV4)
    (plan : SnapshotDeletionPlan) (unlisted : plan.protectedByOperations = []) (shared : plan.sharedObjectCount = 0)
    (exclusive : plan.exclusiveObjectCount = objects.length)
    (reclaimable : plan.estimatedReclaimableBytes.toNat = totalBytes objects) :
    ExactPlan codec state snapshotId objects plan ↔ (∀ operation, ¬ ProtectedBy codec state snapshotId operation) ∧
      totalBytes (objects.filter fun object => object ∈ otherObjects codec state.repository snapshotId) = 0 := by
  have split := total_split (fun object => object ∈ otherObjects codec state.repository snapshotId) objects
  simp only [← decide_not] at split
  constructor
  · rintro ⟨lists, _, _, reclaims⟩
    refine ⟨fun operation protects => ?_, by omega⟩
    have listed := lists operation protects
    rw [unlisted] at listed
    cases listed
  · rintro ⟨free, unshared⟩
    exact ⟨fun operation protects => absurd protects (free operation), fun operation protects => absurd protects (free operation),
      by rw [shared, exclusive, Nat.zero_add], by omega⟩

theorem deletion_plan_exact_iff (state : DeletionRepository) (snapshotId : String) (plan : SnapshotDeletionPlan)
    (run : planSnapshotDeletionV4 codec state snapshotId = .ok plan) :
    ∃ name root objects, Manifest codec state.repository name root objects ∧ root.snapshotId = snapshotId ∧
      (ExactPlan codec state snapshotId objects plan ↔ (∀ operation, ¬ ProtectedBy codec state snapshotId operation) ∧
        totalBytes (objects.filter fun object => object ∈ otherObjects codec state.repository snapshotId) = 0) := by
  obtain ⟨name, root, objects, manifest, named, unlisted, shared, exclusive, reclaimable⟩ :=
    planned_target codec state snapshotId plan run
  exact ⟨name, root, objects, manifest, named,
    exact_plan_iff codec state snapshotId objects plan unlisted shared exclusive reclaimable⟩

end Exact

namespace DeletionSample

def firstId : String := "01890a5d-ac96-774b-bcce-b302099a8057"

def secondId : String := "01890a5d-ac96-774b-bcce-b302099a8058"

def thirdId : String := "01890a5d-ac96-774b-bcce-b302099a8059"

def overlayText : Bytes := canonicalJson sampleLib (SnapshotOverlayV4.new ∅).toValue

-- The digest of that text.
def overlayName : String := "sha256:7c499e3faa714a943f87207e44d2ff7ae71f1fc21425d2cca78973f4b23854a5"

-- The overlay of a snapshot of its own.
def otherText : Bytes :=
  canonicalJson sampleLib (SnapshotOverlayV4.new
    ((∅ : Std.ExtTreeMap String LocalThreadOverlayV4).insert "thread" ⟨none, some "/work", none, [], ∅⟩)).toValue

def otherName : String := "sha256:4fc239c7a38f4aac42175a125fb7621e5803fa9c17840124860829864efe16e1"

def root (snapshotId overlay : String) : SnapshotRootV4 :=
  { schemaVersion := 4, normalizationSchemaVersion := 1, snapshotId := snapshotId, createdAt := "2026-01-01T00:00:00Z", threads := [],
    overlaySha256 := overlay, warningCount := 0 }

def roots : List SnapshotRootV4 := [root firstId overlayName, root secondId overlayName, root thirdId otherName]

def journalValue : Value := .object [("operationId", .string "op"), ("snapshotId", .string firstId), ("status", .string "applying")]

def journalText : Bytes := canonicalJson sampleLib journalValue

def decoders : Decoders where
  revisionRoot _ := .error "expected value"
  descriptor _ := .error "expected value"
  manifest _ := .error "expected value"
  overlay _ := .error "expected value"
  snapshotRoot bytes := found (roots.find? fun root => canonicalJson sampleLib root.toValue = bytes) "expected value"

def codec : DeletionCodec :=
  { lib := sampleLib, serde := decoders, metadata := fun _ => .error "expected value"
    parseUuid := fun text => if text ∈ [firstId, secondId, thirdId] then some 0x01890a5dac96774bbcceb302099a8057 else none
    parse := fun bytes => if bytes = journalText then .ok journalValue else .error "expected value" }

-- Three snapshots without threads, two of them with one overlay, and an import of the first
-- that has not ended.
def busy : DeletionRepository :=
  { repository :=
      { files := ((∅ : Files).insert (.snapshotOverlay, overlayName) overlayText).insert (.snapshotOverlay, otherName) otherText
        snapshots := roots.foldl (fun snapshots root => snapshots.insert root.snapshotId (canonicalJson sampleLib root.toValue)) ∅
        metadata := ∅ }
    journal := (∅ : Std.ExtTreeMap String Bytes).insert "import-op.json" journalText
    trash := ∅ }

-- What the trash asks of the plan of the first snapshot.
def planned : Option (String × Bool × List String) := (planSnapshotDeletionV4 codec busy firstId).toOption.map fun plan =>
  (plan.snapshotId, plan.pinned, plan.protectedByOperations)

def thirdObjects : List StorageObjectRefV4 := ((snapshotObjects codec busy.repository (root thirdId otherName)).toOption).getD []

theorem sample_evaluated : planned = some (firstId, false, []) ∧ busy.repository.snapshots.contains firstId = true ∧
    (planSnapshotDeletionV4 codec busy thirdId).toOption.isSome = true ∧
    thirdObjects ≠ [] ∧ thirdObjects.filter (fun object => object ∈ otherObjects codec busy.repository thirdId) = [] ∧
    (protectingOperation codec firstId "import-op.json" journalText).toOption = some (some "op") ∧
    (protectingOperation codec thirdId "import-op.json" journalText).toOption = some none := by
  decide +kernel

theorem to_option_some {α : Type} (outcome : Except String α) (value : α) : outcome.toOption = some value ↔ outcome = .ok value := by
  cases outcome with
  | error reason => simp [Except.toOption]
  | ok found => simp [Except.toOption]

theorem journal_read (name : String) (bytes : Bytes) (held : busy.journal[name]? = some bytes) :
    name = "import-op.json" ∧ bytes = journalText := by
  rw [busy, Keyed.lookup_insert] at held
  split at held
  · rename_i same
    exact ⟨same, (Option.some.inj held).symm⟩
  · simp at held

theorem third_root (bytes : Bytes) (found : SnapshotRootV4) (read : codec.serde.snapshotRoot bytes = .ok found)
    (named : found.snapshotId = thirdId) : found = root thirdId otherName := by
  have listed := List.mem_of_find?_eq_some ((found_ok _ _ _).mp read)
  simp only [roots, List.mem_cons, List.not_mem_nil, or_false] at listed
  rcases listed with rfl | rfl | rfl
  · exact absurd named (by decide)
  · exact absurd named (by decide)
  · rfl

-- The third snapshot shares nothing and no journal names it.
theorem deletion_plan_sample : ∃ plan objects, planSnapshotDeletionV4 codec busy thirdId = .ok plan ∧ objects ≠ [] ∧
    ExactPlan codec busy thirdId objects plan := by
  obtain ⟨_, _, plans, some, apart, _, unnamed⟩ := sample_evaluated
  obtain ⟨plan, planned⟩ := Option.isSome_iff_exists.mp plans
  have run := (to_option_some _ _).mp planned
  obtain ⟨name, snapshot, objects, manifest, named, iff⟩ := deletion_plan_exact_iff codec busy thirdId plan run
  obtain ⟨bytes, _, read⟩ := manifest.stored
  have own : objects = thirdObjects := by
    rw [thirdObjects, ← third_root bytes snapshot read named, manifest.reads]
    rfl
  refine ⟨plan, objects, run, own ▸ some, iff.mpr ⟨?_, ?_⟩⟩
  · rintro operation ⟨journal, text, held, protects⟩
    obtain ⟨rfl, rfl⟩ := journal_read journal text held
    rw [protects] at unnamed
    cases unnamed
  · rw [own, apart]
    rfl

-- The plan of a snapshot that an import still needs says nothing of it, and the snapshot goes.
theorem protected_snapshot_trashed : ProtectedBy codec busy firstId "op" ∧
    ∃ plan, planSnapshotDeletionV4 codec busy firstId = .ok plan ∧
    "op" ∉ plan.protectedByOperations ∧ (trashLocalSnapshot codec "trash" busy plan).1 = .ok () ∧
    firstId ∉ (trashLocalSnapshot codec "trash" busy plan).2.repository.snapshots := by
  obtain ⟨plans, stored, _, _, _, protects, _⟩ := sample_evaluated
  refine ⟨⟨"import-op.json", journalText, by rw [busy, Keyed.lookup_insert, if_pos rfl], (to_option_some _ _).mp protects⟩, ?_⟩
  obtain ⟨plan, made, facts⟩ := Option.map_eq_some_iff.mp plans
  simp only [Prod.mk.injEq] at facts
  obtain ⟨named, unpinned, unlisted⟩ := facts
  have run := (to_option_some _ _).mp made
  rw [← Std.ExtTreeMap.isSome_getElem?_eq_contains] at stored
  obtain ⟨manifest, held⟩ := Option.isSome_iff_exists.mp stored
  have checked : checkTrash codec busy plan = .ok (firstId, manifest) := by
    simp only [checkTrash, named, bind_ok, ensure_ok, found_ok, pure_ok]
    exact ⟨plan, run, (), rfl, (), unpinned, (), unlisted, manifest, by rw [named]; exact held, by rw [named]⟩
  have known : codec.parseUuid firstId = some 0x01890a5dac96774bbcceb302099a8057 := by simp [codec]
  refine ⟨plan, run, by rw [unlisted]; exact List.not_mem_nil, ?_⟩
  rw [trashLocalSnapshot, checked]
  simp [known]

end DeletionSample

end SessionSync.Storage
