import SessionSync.Core.JsonLength
import SessionSync.Storage.TrashPurge
import SessionSync.Storage.VerifiedRoots

set_option autoImplicit false

namespace SessionSync.Storage

open SessionSync.Core Checked

section Planned

variable {codec : PurgeCodec} {repository : MarkedRepository} {requested : List String} {purgeAll : Bool}
    {plan : LocalTrashPurgePlanV4}

-- What a plan rests on.
structure PlannedFrom (codec : PurgeCodec) (repository : MarkedRepository) (plan : LocalTrashPurgePlanV4)
    (reached all : List StorageObjectRefV4) : Prop where
  marked : collectReachableObjects codec.toMarkCodec repository plan.operationIds = .ok reached
  enumerated : enumerateRepositoryObjects repository.files StorageObjectKindV4.all = .ok all
  candidates : plan.candidateObjects = all.filter fun object => object ∉ reached
  bounded : (plan.candidateObjects.map fun object => object.byteLength.toNat).sum < 2 ^ 64
  present : ∀ operation ∈ plan.operationIds, ∃ directory, repository.trash[operation]? = some directory
  distinct : plan.operationIds.Nodup

theorem selected_present (repository : MarkedRepository) (roots : List (String × SnapshotRootV4)) (operationIds : List String)
    (total : UInt64) (result : List (String × SnapshotRootV4) × List StorageObjectRefV4 × UInt64)
    (run : selectTrash codec repository roots operationIds total = .ok result) :
    ∀ operation ∈ operationIds, ∃ directory, repository.trash[operation]? = some directory := by
  induction operationIds generalizing total result with
  | nil => exact fun _ impossible => by cases impossible
  | cons head rest ih =>
      simp only [selectTrash, bind_ok, pure_ok, found_ok] at run
      obtain ⟨_, _, _, _, directory, held, _, _, _, _, others, later, rfl⟩ := run
      intro operation member
      rcases List.mem_cons.mp member with rfl | below
      · exact ⟨directory, held⟩
      · exact ih _ _ later operation below

theorem purge_planned (run : planTrashPurge codec repository requested purgeAll = .ok plan) :
    ∃ reached all, PlannedFrom codec repository plan reached all := by
  simp only [planTrashPurge, bind_ok, pure_ok] at run
  obtain ⟨_, _, _, _, roots, _, _, _, _, _, _, _, selected, chosen, reached, marked, all, enumerated, total, summed, _, _, rfl⟩ := run
  refine ⟨reached, all, marked, enumerated, rfl, ?_, selected_present repository roots _ _ _ chosen, Keyed.sorted_keys_nodup _⟩
  have sum := checked_total _ _ _ _ summed
  rw [List.map_map] at sum
  have small := total.toNat_lt
  rw [sum] at small
  simpa [Function.comp_def] using small

theorem enumerated_iff (files : Files) (kinds : List StorageObjectKindV4) (all : List StorageObjectRefV4)
    (run : enumerateRepositoryObjects files kinds = .ok all) (object : StorageObjectRefV4) :
    object ∈ all ↔ object.kind ∈ kinds ∧ Stored files object := by
  have named : ∀ (file : ObjectName × Bytes) (result : StorageObjectRefV4), enumerateOne file = .ok result →
    fileRef file = result := by
    intro file result one
    simp only [enumerateOne, bind_ok, pure_ok] at one
    obtain ⟨_, _, same⟩ := one
    exact same
  constructor
  · intro member
    obtain ⟨⟨name, bytes⟩, listed, one⟩ := map_each_mem _ _ _ run object member
    obtain ⟨held, inside⟩ := List.mem_filter.mp listed
    have same := named _ _ one
    rw [← same]
    exact ⟨of_decide_eq_true inside, bytes, Std.ExtTreeMap.mem_toList_iff_getElem?_eq_some.mp held, rfl⟩
  · intro stored
    obtain ⟨inside, bytes, held, same⟩ := stored
    have listed : (object.name, bytes) ∈ files.toList.filter fun file => file.1.1 ∈ kinds :=
      List.mem_filter.mpr ⟨Std.ExtTreeMap.mem_toList_iff_getElem?_eq_some.mpr held, decide_eq_true inside⟩
    obtain ⟨result, one⟩ := (map_each_iff _ _).mp ⟨all, run⟩ _ listed
    rw [← same, named _ _ one]
    exact map_each_result _ _ _ run _ listed result one

theorem every_kind (kind : StorageObjectKindV4) : kind ∈ StorageObjectKindV4.all := by cases kind <;> decide

variable {reached all : List StorageObjectRefV4} (planned : PlannedFrom codec repository plan reached all)

include planned

-- The candidates are the stored objects that no kept root reaches.
theorem candidate_iff (object : StorageObjectRefV4) :
    object ∈ plan.candidateObjects ↔ Stored repository.files object ∧
      ∀ objects, KeptGraph codec.toMarkCodec repository plan.operationIds objects → object ∉ objects := by
  obtain ⟨snapshots, trash, revisions, roots, parts⟩ := (reachable_parts _ _ _ _).mp planned.marked
  rw [planned.candidates, List.mem_filter, enumerated_iff _ _ _ planned.enumerated, decide_eq_true_eq, reached_iff parts]
  simp only [every_kind, true_and, not_exists, not_and]

theorem candidates_unreached : Unreached repository.files reached plan.candidateObjects := by
  intro object member
  rw [planned.candidates, List.mem_filter, enumerated_iff _ _ _ planned.enumerated, decide_eq_true_eq] at member
  exact ⟨member.1.2, member.2⟩

end Planned

section Safe

variable (codec : PurgeCodec) (repository : MarkedRepository) (plan : LocalTrashPurgePlanV4)

def PurgedNames : List ObjectName := plan.candidateObjects.map StorageObjectRefV4.name

def purgedTrash : Std.ExtTreeMap String TrashDirectory := repository.trash.filter fun operation _ => operation ∉ plan.operationIds

-- What holds whichever of the candidates are gone.
structure PurgeSafe : Prop where
  exact : ∀ object, object ∈ plan.candidateObjects ↔ Stored repository.files object ∧
    ∀ objects, KeptGraph codec.toMarkCodec repository plan.operationIds objects → object ∉ objects
  snapshots : ∀ gone, (∀ name ∈ gone, name ∈ PurgedNames plan) →
    ∀ (name : String) (manifest : Bytes) all, repository.snapshots[name]? = some manifest →
    verifiedSnapshot codec.toMarkCodec repository.files manifest = .ok all →
    verifiedSnapshot codec.toMarkCodec (without repository.files gone) manifest = .ok all
  trash : ∀ gone, (∀ name ∈ gone, name ∈ PurgedNames plan) →
    ∀ (operation : String) (directory : TrashDirectory) (manifest : Bytes) all, repository.trash[operation]? = some directory →
    operation ∉ plan.operationIds → directory["snapshot.json"]? = some manifest →
    verifiedSnapshot codec.toMarkCodec repository.files manifest = .ok all →
    verifiedSnapshot codec.toMarkCodec (without repository.files gone) manifest = .ok all
  revisions : ∀ gone, (∀ name ∈ gone, name ∈ PurgedNames plan) → ∀ revisionId all,
    verifiedRevision codec.toMarkCodec repository.files revisionId = .ok all →
    verifiedRevision codec.toMarkCodec (without repository.files gone) revisionId = .ok all
  marks : ∀ gone, (∀ name ∈ gone, name ∈ PurgedNames plan) →
    collectReachableObjects codec.toMarkCodec ⟨without repository.files gone, repository.snapshots, purgedTrash repository plan⟩ [] =
      collectReachableObjects codec.toMarkCodec repository plan.operationIds
  clean : ∀ (name : ObjectName) (bytes : Bytes), (without repository.files (PurgedNames plan))[name]? = some bytes →
    ∃ objects, KeptGraph codec.toMarkCodec repository plan.operationIds objects ∧ fileRef (name, bytes) ∈ objects

variable {codec repository plan} {requested : List String} {purgeAll : Bool}

theorem kept_graph_keeps (reached all : List StorageObjectRefV4) (planned : PlannedFrom codec repository plan reached all)
    (gone : List ObjectName) (among : ∀ name ∈ gone, name ∈ PurgedNames plan) (objects : List StorageObjectRefV4)
    (kept : KeptGraph codec.toMarkCodec repository plan.operationIds objects) :
    Keeps repository.files (without repository.files gone) objects := by
  obtain ⟨snapshots, trash, revisions, roots, parts⟩ := (reachable_parts _ _ _ _).mp planned.marked
  intro object member stored
  rw [lookup_without, if_neg]
  exact reached_stays plan.candidateObjects (candidates_unreached planned) gone among object
    ((reached_iff parts object).mpr ⟨objects, kept, member⟩) stored

theorem trash_purge_safe (canonical : CanonicalManifests codec.toMarkCodec repository.files)
    (run : planTrashPurge codec repository requested purgeAll = .ok plan) : PurgeSafe codec repository plan := by
  obtain ⟨reached, all, planned⟩ := purge_planned run
  obtain ⟨snapshots, trash, revisions, roots, parts⟩ := (reachable_parts _ _ _ _).mp planned.marked
  refine ⟨candidate_iff planned, ?_, ?_, ?_, ?_, ?_⟩
  · intro gone among name manifest all held read
    obtain ⟨objects, ran⟩ := (map_each_iff _ _).mp ⟨snapshots, parts.snapshotsRun⟩ (name, manifest)
      (Std.ExtTreeMap.mem_toList_iff_getElem?_eq_some.mpr held)
    obtain ⟨root, decoded, graph⟩ := (collect_snapshot_ok _ _ _).mp ran
    exact snapshot_kept canonical manifest root objects decoded graph
      (kept_graph_keeps reached _ planned gone among objects (.snapshot name manifest root held decoded graph)) all read
  · intro gone among operation directory manifest all held kept stored read
    obtain ⟨⟨name, root⟩, loaded⟩ := (map_each_iff _ _).mp ⟨roots, parts.rootsRun⟩ (operation, directory)
      (Std.ExtTreeMap.mem_toList_iff_getElem?_eq_some.mpr held)
    have same : name = operation := load_trash_root_named _ _ loaded
    subst same
    have listed := map_each_result _ _ _ parts.rootsRun _ (Std.ExtTreeMap.mem_toList_iff_getElem?_eq_some.mpr held) _ loaded
    obtain ⟨objects, graph⟩ :=
      (map_each_iff _ _).mp ⟨trash, parts.trashRun⟩ (name, root) (List.mem_filter.mpr ⟨listed, decide_eq_true kept⟩)
    have decoded : readBoundedV4 codec.serde.snapshotRoot manifest = .ok root := by
      have ran := loaded
      simp only [loadTrashRoot, bind_ok, pure_ok, found_ok, Prod.mk.injEq, true_and] at ran
      obtain ⟨_, _, _, _, _, _, _, _, other, there, _, decoded, _, _, _, _, rfl⟩ := ran
      rw [stored, Option.some.injEq] at there
      exact there ▸ decoded
    exact snapshot_kept canonical manifest root objects decoded graph
      (kept_graph_keeps reached _ planned gone among objects (.trash name directory root held kept loaded graph)) all read
  · intro gone among revisionId all read
    have held : ∃ bytes, repository.files[((.revisionRoot, revisionId) : ObjectName)]? = some bytes := by
      simp only [verifiedRevision, bind_ok, read_json_ok, read_object_ok] at read
      obtain ⟨_, ⟨bytes, ⟨_, held, _⟩, _⟩, _⟩ := read
      exact ⟨bytes, held⟩
    obtain ⟨bytes, held⟩ := held
    obtain ⟨objects, graph⟩ :=
      (map_each_iff _ _).mp ⟨revisions, parts.revisionsRun⟩ revisionId ((mem_revision_roots _ _).mpr ⟨bytes, held⟩)
    exact revision_kept canonical revisionId objects graph
      (kept_graph_keeps reached _ planned gone among objects (.revision revisionId bytes held graph)) all read
  · intro gone among
    rw [planned.marked]
    exact swept_reachable planned.marked canonical plan.candidateObjects (candidates_unreached planned) gone among
  · intro name bytes held
    rw [lookup_without] at held
    by_cases lost : name ∈ PurgedNames plan
    · rw [if_pos lost] at held
      cases held
    · rw [if_neg lost] at held
      by_contra unreached
      refine lost (List.mem_map.mpr ⟨fileRef (name, bytes), (candidate_iff planned _).mpr ⟨⟨bytes, held, rfl⟩, ?_⟩, rfl⟩)
      exact fun objects kept inside => unreached ⟨objects, kept, inside⟩

end Safe

theorem total_fits (reason : String) (lengths : List UInt64) (total : UInt64)
    (fits : total.toNat + (lengths.map UInt64.toNat).sum < 2 ^ 64) :
    ∃ result, checkedTotal reason lengths total = .ok result := by
  induction lengths generalizing total with
  | nil => exact ⟨total, rfl⟩
  | cons length rest ih =>
      rw [List.map_cons, List.sum_cons, ← Nat.add_assoc] at fits
      have small : total.toNat + length.toNat < 2 ^ 64 := by omega
      have sum : (total + length).toNat = total.toNat + length.toNat := by rw [UInt64.toNat_add, Nat.mod_eq_of_lt small]
      obtain ⟨result, run⟩ := ih (total + length) (by rw [sum]; exact fits)
      refine ⟨result, ?_⟩
      rw [checkedTotal, bind_ok]
      exact ⟨(), (ensure_ok _ _ _).mpr small, run⟩

section Lone

variable (codec : PurgeCodec) (repository : MarkedRepository) {operation : String} {uuid : Uuid} {directory : TrashDirectory}
    {root : SnapshotRootV4}
  {graph objects : List StorageObjectRefV4} {bytes : UInt64}

-- With no root but one trashed snapshot every object is a candidate.
theorem lone_planned (parsed : codec.parseUuid operation = some uuid)
    (loaded : loadLocalTrashRoots codec.toMarkCodec repository = .ok [(operation, root)])
    (held : repository.trash[operation]? = some directory) (counted : directoryBytes directory = .ok bytes)
    (reads : collectSnapshotGraphObjects codec.toMarkCodec repository.files root = .ok graph)
    (unshared : repository.snapshots.toList = []) (rootless : revisionRoots repository.files = [])
    (listed : enumerateRepositoryObjects repository.files StorageObjectKindV4.all = .ok objects)
    (fits : ((objects.map StorageObjectRefV4.byteLength).map UInt64.toNat).sum < 2 ^ 64) :
    ∃ freed, planTrashPurge codec repository [operation] false = .ok ⟨1, codec.now, [operation], 1, objects, freed, bytes, 0,
      fingerprintOf codec [operation] [(operation, root)] objects bytes 0⟩ := by
  obtain ⟨freed, total⟩ :=
    total_fits "local purge byte count overflow" (objects.map StorageObjectRefV4.byteLength) 0 (by simpa using fits)
  have sorted : Keyed.sortedKeys [operation] = [operation] := rfl
  have selected : selectTrash codec repository [(operation, root)] [operation] 0 = .ok ([(operation, root)], graph, bytes) := by
    have small : (0 : UInt64).toNat + bytes.toNat < 2 ^ 64 := by simpa using bytes.toNat_lt
    rw [selectTrash, bind_ok]
    refine ⟨root, by rw [List.lookup_cons, beq_self_eq_true]; rfl, ?_⟩
    rw [reads, held]
    simp only [bind_ok, ensure_ok]
    exact ⟨graph, rfl, directory, rfl, bytes, counted, (), small, _, rfl, by simp only [UInt64.zero_add, List.append_nil]; rfl⟩
  have unreached : collectReachableObjects codec.toMarkCodec repository [operation] = .ok [] := by
    simp only [collectReachableObjects, unshared, rootless, bind_ok, pure_ok]
    refine ⟨[], rfl, [(operation, root)], loaded, [], ?_, [], rfl, rfl⟩
    rw [List.filter_cons_of_neg (by simp)]
    rfl
  have each : [operation].forM (checkSelected codec [(operation, root)]) = .ok () := by
    have checked : checkSelected codec [(operation, root)] operation = .ok () := by
      rw [checkSelected, bind_ok]
      exact ⟨_, (found_ok _ _ _).mpr parsed, (ensure_ok _ _ _).mpr (by simp)⟩
    rw [List.forM, checked]
    rfl
  have shared : checkedTotal "shared local purge byte count overflow" ((graph.dedup.filter fun object =>
    object ∈ ([] : List StorageObjectRefV4)).map
      StorageObjectRefV4.byteLength) 0 = .ok 0 := by simp [checkedTotal]
  have kept : objects.filter (fun object => object ∉ ([] : List StorageObjectRefV4)) = objects :=
    List.filter_eq_self.mpr fun _ _ => decide_eq_true List.not_mem_nil
  simp only [planTrashPurge, Bool.false_eq_true, if_false, sorted, bind_ok, ensure_ok, pure_ok]
  refine ⟨freed, (), by simp, (), by simp, _, loaded, (), by simp, (), by simp, (), each, _, selected, [], unreached, objects, listed,
    freed, by rw [kept]; exact total, 0, shared, ?_⟩
  rw [kept]
  rfl

end Lone

namespace PurgeSample

def overlayText : Bytes := canonicalJson sampleLib (SnapshotOverlayV4.new ∅).toValue

def overlayName : String := digestBytes sampleLib overlayText

def root : SnapshotRootV4 :=
  { schemaVersion := 4, normalizationSchemaVersion := 1, snapshotId := "s", createdAt := "now", threads := [],
    overlaySha256 := overlayName, warningCount := 0 }

def rootText : Bytes := canonicalJson sampleLib root.toValue

def operation : String := "01890a5d-ac96-774b-bcce-b302099a8057"

def entry : SnapshotTrashEntry := ⟨operation, "s", "then", "/r/snapshots/s.json", "/r/trash/s.json"⟩

def entryText : Bytes :=
  canonicalJson sampleLib (.object [("operationId", .string entry.operationId), ("snapshotId", .string entry.snapshotId),
  ("trashedAt", .string entry.trashedAt), ("originalManifestPath", .string entry.originalManifestPath),
  ("trashManifestPath", .string entry.trashManifestPath)])

def decoders : Decoders where
  revisionRoot _ := .error "expected value"
  descriptor _ := .error "expected value"
  manifest _ := .error "expected value"
  overlay _ := .error "expected value"
  snapshotRoot bytes := if bytes = rootText then .ok root else .error "expected value"

def codec : PurgeCodec :=
  { lib := sampleLib, serde := decoders, metadata := fun _ => .error "expected value",
    parseUuid := fun text => if text = operation then some 0x01890a5dac96774bbcceb302099a8057 else none
    trashEntry := fun bytes => if bytes = entryText then .ok entry else .error "expected value"
    repositoryRoot := "/r", now := "now", parseValue := fun _ => .error "expected value" }

def directory : TrashDirectory := ((∅ : TrashDirectory).insert "entry.json" entryText).insert "snapshot.json" rootText

-- One snapshot in the trash, with an overlay that nothing else reaches.
def repository : MarkedRepository :=
  { files := (∅ : Files).insert (.snapshotOverlay, overlayName) overlayText, snapshots := ∅,
    trash := (∅ : Std.ExtTreeMap String TrashDirectory).insert operation directory }

def overlay : StorageObjectRefV4 := ⟨.snapshotOverlay, overlayName, fileLength overlayText⟩

theorem directory_files : directory.toList = [("entry.json", entryText), ("snapshot.json", rootText)] := by rfl

theorem short (value : Value) (bound : Nat) (narrow : width sampleLib value ≤ bound) :
    (fileLength (canonicalJson sampleLib value)).toNat ≤ 4 * bound := by
  rw [fileLength, UInt64.toNat_ofNat']
  exact (Nat.mod_le _ _).trans ((canonical_json_length sampleLib value).trans (Nat.mul_le_mul_left 4 narrow))

theorem root_short : (fileLength rootText).toNat ≤ 8000 := by
  have four : (Nat.toDigits 10 4).length = 1 := by decide
  have one : (Nat.toDigits 10 1).length = 1 := by decide
  have narrow : ∀ name, (writeString name).length ≤ 428 →
    width sampleLib (SnapshotRootV4.toValue ⟨4, 1, "s", "now", [], name, 0⟩) ≤ 2000 := by
    intro name digest
    simp [four, one, SnapshotRootV4.toValue, width, widthFields, widthElements, Value.nat, writeNumber, writeString,
      escapeChar] at digest ⊢
    omega
  exact short _ 2000 (narrow _ (write_digest_length sampleLib overlayText))

theorem entry_short : (fileLength entryText).toNat ≤ 8000 := by
  refine short _ 2000 ?_
  simp [width, widthFields, entry, operation, writeString, escapeChar]

theorem overlay_short : (fileLength overlayText).toNat ≤ 4000 := by
  refine short _ 1000 ?_
  have four : (Nat.toDigits 10 4).length = 1 := by decide
  have one : (Nat.toDigits 10 1).length = 1 := by decide
  have empty : (∅ : Std.ExtTreeMap String LocalThreadOverlayV4).toList = [] := rfl
  simp [SnapshotOverlayV4.new, SnapshotOverlayV4.toValue, width, widthFields, Value.nat, writeNumber, writeString, escapeChar,
    four, one, empty]

theorem parsed : codec.parseUuid operation = some 0x01890a5dac96774bbcceb302099a8057 := by
  simp [codec]

theorem root_read : readBoundedV4 codec.serde.snapshotRoot rootText = .ok root := by
  simp only [readBoundedV4, bind_ok, ensure_ok]
  refine ⟨(), ?_, by simp [codec, decoders]⟩
  rw [UInt64.le_iff_toNat_le]
  exact root_short.trans (by decide)

theorem entry_read : readBoundedV4 codec.trashEntry entryText = .ok entry := by
  simp only [readBoundedV4, bind_ok, ensure_ok]
  refine ⟨(), ?_, by simp [codec]⟩
  rw [UInt64.le_iff_toNat_le]
  exact entry_short.trans (by decide)

theorem root_valid : root.validate = .ok () := by
  simp only [SnapshotRootV4.validate, bind_ok, ensure_ok]
  exact ⟨(), ⟨rfl, rfl⟩, rfl⟩

theorem trash_loaded : loadLocalTrashRoots codec.toMarkCodec repository = .ok [(operation, root)] := by
  have one : repository.trash.toList = [(operation, directory)] := Keyed.single_to_list _ _
  have loaded : loadTrashRoot codec.toMarkCodec (operation, directory) = .ok (operation, root) := by
    simp only [loadTrashRoot, bind_ok, found_ok, ensure_ok, pure_ok]
    refine ⟨_, parsed, entryText, ?_, entry, entry_read, (), rfl, rootText, ?_, root, root_read, (), root_valid, (), rfl, rfl⟩
    · rw [directory, Keyed.lookup_insert, if_neg (by decide), Keyed.lookup_insert, if_pos rfl]
    · rw [directory, Keyed.lookup_insert, if_pos rfl]
  rw [loadLocalTrashRoots, one, List.mapM_cons, loaded]
  rfl

-- The trash of the sample beside other files.
def sampleOver (files : Files) : MarkedRepository := { repository with files := files }

theorem graph_read (files : Files) (held : files[((.snapshotOverlay, overlayName) : ObjectName)]? = some overlayText) :
    collectSnapshotGraphObjects codec.toMarkCodec files root = .ok [overlay] := by
  simp only [collectSnapshotGraphObjects, bind_ok, pure_ok]
  exact ⟨(), root_valid, overlayText, (object_file_ok _ _ _ _).mpr ⟨digest_bytes_valid _ _, held⟩, [], rfl, rfl⟩

theorem overlay_held : repository.files[((.snapshotOverlay, overlayName) : ObjectName)]? = some overlayText := by
  rw [repository, Keyed.lookup_insert, if_pos rfl]

theorem one_file : repository.files.toList = [((.snapshotOverlay, overlayName), overlayText)] := Keyed.single_to_list _ _

theorem all_listed : enumerateRepositoryObjects repository.files StorageObjectKindV4.all = .ok [overlay] := by
  have listed : enumerateOne ((.snapshotOverlay, overlayName), overlayText) = .ok overlay := by
    simp only [enumerateOne, validateSha256V4, bind_ok, ensure_ok, pure_ok]
    exact ⟨(), digest_bytes_valid _ _, rfl⟩
  rw [enumerateRepositoryObjects, one_file, List.filter_cons_of_pos (by decide), List.filter_nil, List.mapM_cons, listed]
  rfl

theorem entry_bytes : ∃ total, directoryBytes directory = .ok total ∧ total.toNat ≤ 16000 := by
  have entryBound := entry_short
  have rootBound := root_short
  obtain ⟨total, run⟩ := total_fits "storage byte count overflow" [fileLength entryText, fileLength rootText] 0 (by simp; omega)
  refine ⟨total, by rw [directoryBytes, directory_files]; exact run, ?_⟩
  have sum := checked_total _ _ _ _ run
  simp at sum
  omega

def planOver (objects : List StorageObjectRefV4) (freed metadata : UInt64) : LocalTrashPurgePlanV4 :=
  ⟨1, "now", [operation], 1, objects, freed, metadata, 0, fingerprintOf codec [operation] [(operation, root)] objects metadata 0⟩

def planWith (freed metadata : UInt64) : LocalTrashPurgePlanV4 :=
  ⟨1, "now", [operation], 1, [overlay], freed, metadata, 0, fingerprintOf codec [operation] [(operation, root)] [overlay] metadata 0⟩

theorem planned_over (files : Files) (objects : List StorageObjectRefV4)
    (held : files[((.snapshotOverlay, overlayName) : ObjectName)]? = some overlayText) (rootless : revisionRoots files = [])
    (listed : enumerateRepositoryObjects files StorageObjectKindV4.all = .ok objects)
    (fits : ((objects.map StorageObjectRefV4.byteLength).map UInt64.toNat).sum < 2 ^ 64) :
    ∃ freed metadata, planTrashPurge codec (sampleOver files) [operation] false = .ok (planOver objects freed metadata) := by
  obtain ⟨bytes, counted, _⟩ := entry_bytes
  have trashed : (sampleOver files).trash[operation]? = some directory :=
    by rw [sampleOver, repository, Keyed.lookup_insert, if_pos rfl]
  obtain ⟨freed, planned⟩ :=
    lone_planned codec (sampleOver files) parsed trash_loaded trashed counted (graph_read files held) rfl rootless listed fits
  exact ⟨freed, bytes, planned⟩

theorem sample_planned : ∃ freed metadata, planTrashPurge codec repository [operation] false = .ok (planWith freed metadata) :=
  planned_over repository.files [overlay] overlay_held (by rw [revisionRoots, one_file]; rfl) all_listed
    (by simpa using overlay.byteLength.toNat_lt)

theorem trash_purge_sample : ∃ plan, planTrashPurge codec repository [operation] false = .ok plan ∧
    plan.candidateObjects = [overlay] ∧
    PurgeSafe codec repository plan := by
  obtain ⟨freed, metadata, run⟩ := sample_planned
  refine ⟨_, run, rfl, trash_purge_safe (fun sha256 bytes manifest _ decoded => ?_) run⟩
  exact no_value _ _ decoded

end PurgeSample

end SessionSync.Storage
