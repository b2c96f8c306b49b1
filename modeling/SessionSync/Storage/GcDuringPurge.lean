import SessionSync.Storage.PurgeProtocol
import SessionSync.Storage.Quarantine

set_option autoImplicit false

namespace SessionSync.Storage

open SessionSync.Core Checked Local
open Server (StorageObjectKind StorageObjectRef)

-- trash/gc/<operation>/<kind>/<digest>.
abbrev CollectedPlace := String × ObjectName

instance collectedTrans : Std.TransOrd CollectedPlace := inferInstance

instance collectedLawful : Std.LawfulEqOrd CollectedPlace := inferInstance

-- A repository in which a purge of the trash and collections of garbage meet.
structure CollectedRepository extends PurgeRepository where
  collected : Std.ExtTreeMap CollectedPlace Bytes

def storageKindV3 : StorageObjectKindV4 → Option StorageObjectKind
  | .whole => some .whole
  | .chunk => some .chunk
  | .chunkManifest => some .chunkManifest
  | .thread => some .thread
  | .revisionRoot => some .revisionRoot
  | .snapshotOverlay => none

-- Both formats have the same directories below objects/.
def kindOfV3 : StorageObjectKind → StorageObjectKindV4
  | .whole => .whole
  | .chunk => .chunk
  | .chunkManifest => .chunkManifest
  | .thread => .thread
  | .revisionRoot => .revisionRoot

def refV3 (object : StorageObjectRefV4) : Option StorageObjectRef :=
  (storageKindV3 object.kind).map fun kind => { kind := kind, sha256 := object.sha256, byteLength := object.byteLength }

def placeV3 (object : StorageObjectRef) : ObjectName := (kindOfV3 object.kind, object.sha256)

section Collect

variable (codec : PurgeCodec)

def planLocalGcV4 (repository : MarkedRepository) : Except String GcPlan := do
  let reachable ← collectReachableObjects codec.toMarkCodec repository []
  let all ← enumerateRepositoryObjects repository.files StorageObjectKindV4.remote
  let unreachable := ((all.filter fun object => object ∉ reachable).filterMap refV3).insertionSort refOrder
  let reclaimableBytes ← checkedTotal "GC byte count overflow" (unreachable.map StorageObjectRef.byteLength) 0
  return { schemaVersion := 4, createdAt := codec.now, reachableObjects := reachable.dedup.length, unreachableObjects := unreachable,
           reclaimableBytes := reclaimableBytes }

def collectObjects (operation : String) (authoritative : List StorageObjectRef) :
    List StorageObjectRef → CollectedRepository → Except String Unit × CollectedRepository
  | [], repository => (.ok (), repository)
  | object :: rest, repository =>
      if object ∉ authoritative then (.error staleMessage, repository)
      else if validSha256 object.sha256 = false then (.error ("invalid SHA-256 identifier " ++ object.sha256), repository)
      else
        match repository.files[placeV3 object]? with
        | none => collectObjects operation authoritative rest repository
        | some bytes =>
            collectObjects operation authoritative rest
              { repository with files := repository.files.erase (placeV3 object),
                                collected := repository.collected.insert (operation, placeV3 object) bytes }

-- quarantine_local_gc_plan on a repository of the newer format. The operation is new.
def collectLocalGcPlan (operation : String) (plan : GcPlan) (repository : CollectedRepository) :
    Except String Unit × CollectedRepository :=
  let repository :=
    { repository with journals := repository.journals.insert ("gc-" ++ operation ++ ".json") (canonicalJson codec.lib plan.toValue) }
  match planLocalGcV4 codec repository.toMarkedRepository with
  | .error error => (.error error, repository)
  | .ok authoritative => collectObjects operation authoritative.unreachableObjects plan.unreachableObjects repository

end Collect

section Lost

variable {codec : PurgeCodec}

-- An object that an entry of the trash needs which a purge has set aside.
def StagedReach (codec : PurgeCodec) (root : String) (repository : PurgeRepository) (object : StorageObjectRefV4) : Prop :=
  ∃ operation directory manifest objects, repository.stagedEntry root operation = some directory ∧
    loadTrashRoot codec.toMarkCodec (operation, directory) = .ok (operation, manifest) ∧
    collectSnapshotGraphObjects codec.toMarkCodec repository.files manifest = .ok objects ∧ object ∈ objects

-- Nothing that a staged entry needs has left the store.
def KeepsStaged (codec : PurgeCodec) (root : String) (before after : CollectedRepository) : Prop :=
  ∀ object, StagedReach codec root before.toPurgeRepository object → after.files[object.name]? = before.files[object.name]?

-- The graph of every staged entry is read as before.
def Restorable (codec : PurgeCodec) (root : String) (before after : CollectedRepository) : Prop :=
  ∀ operation directory manifest objects, before.stagedEntry root operation = some directory →
    loadTrashRoot codec.toMarkCodec (operation, directory) = .ok (operation, manifest) →
    collectSnapshotGraphObjects codec.toMarkCodec before.files manifest = .ok objects →
    collectSnapshotGraphObjects codec.toMarkCodec after.files manifest = .ok objects

-- Where a plan can be made, another root reaches what the staged entries need.
def Shared (codec : PurgeCodec) (root : String) (repository : CollectedRepository) : Prop :=
  ∀ plan, planLocalGcV4 codec repository.toMarkedRepository = .ok plan →
    ∀ object, StagedReach codec root repository.toPurgeRepository object →
    object.kind ≠ .snapshotOverlay → ∀ bytes, repository.files[object.name]? = some bytes →
      ∃ objects, KeptGraph codec.toMarkCodec repository.toMarkedRepository [] objects ∧ fileRef (object.name, bytes) ∈ objects

theorem kind_of_v3 (kind : StorageObjectKindV4) (legacy : StorageObjectKind) :
    storageKindV3 kind = some legacy ↔ kind = kindOfV3 legacy := by
  cases kind <;> cases legacy <;> simp [storageKindV3, kindOfV3]

theorem ref_v3_place (object : StorageObjectRefV4) (legacy : StorageObjectRef) (same : refV3 object = some legacy) :
    placeV3 legacy = object.name := by
  obtain ⟨kind, named, rfl⟩ := Option.map_eq_some_iff.mp same
  rw [placeV3, ← (kind_of_v3 _ _).mp named]
  rfl

theorem remote_iff (kind : StorageObjectKindV4) : kind ∈ StorageObjectKindV4.remote ↔ kind ≠ .snapshotOverlay := by
  cases kind <;> decide

-- What a plan would move.
theorem planned_place_iff (repository : MarkedRepository) (plan : GcPlan) (planned : planLocalGcV4 codec repository = .ok plan)
    (name : ObjectName) :
    name ∈ plan.unreachableObjects.map placeV3 ↔ name.1 ≠ .snapshotOverlay ∧ ∃ bytes, repository.files[name]? = some bytes ∧
      ∀ objects, KeptGraph codec.toMarkCodec repository [] objects → fileRef (name, bytes) ∉ objects := by
  simp only [planLocalGcV4, bind_ok, pure_ok] at planned
  obtain ⟨reached, marked, all, enumerated, _, _, rfl⟩ := planned
  obtain ⟨snapshots, trash, revisions, roots, parts⟩ := (reachable_parts _ _ _ _).mp marked
  simp only [List.mem_map, List.mem_insertionSort, List.mem_filterMap, List.mem_filter, decide_eq_true_eq,
    enumerated_iff _ _ _ enumerated, remote_iff, reached_iff parts]
  constructor
  · rintro ⟨legacy, ⟨object, ⟨⟨remote, bytes, held, same⟩, free⟩, named⟩, rfl⟩
    rw [ref_v3_place object legacy named]
    exact ⟨remote, bytes, held, fun objects kept inside => free ⟨objects, kept, same ▸ inside⟩⟩
  · rintro ⟨remote, bytes, held, free⟩
    obtain ⟨legacy, named⟩ : ∃ legacy, storageKindV3 name.1 = some legacy := by
      obtain ⟨kind, sha256⟩ := name
      cases kind <;> simp [storageKindV3] at remote ⊢
    have ref : refV3 (fileRef (name, bytes)) = some ⟨legacy, name.2, fileLength bytes⟩ :=
      Option.map_eq_some_iff.mpr ⟨legacy, named, rfl⟩
    exact ⟨_, ⟨fileRef (name, bytes), ⟨⟨remote, bytes, held, rfl⟩, fun ⟨objects, kept, inside⟩ => free objects kept inside⟩, ref⟩,
      ref_v3_place _ _ ref⟩

theorem planned_valid_v4 (repository : MarkedRepository) (plan : GcPlan) (planned : planLocalGcV4 codec repository = .ok plan) :
    ∀ object ∈ plan.unreachableObjects, validSha256 object.sha256 = true := by
  simp only [planLocalGcV4, bind_ok, pure_ok] at planned
  obtain ⟨reached, marked, all, enumerated, _, _, rfl⟩ := planned
  intro object member
  rw [List.mem_insertionSort] at member
  obtain ⟨origin, listed, named⟩ := List.mem_filterMap.mp member
  obtain ⟨kind, _, rfl⟩ := Option.map_eq_some_iff.mp named
  obtain ⟨file, _, one⟩ := map_each_mem _ _ _ enumerated origin (List.mem_filter.mp listed).1
  simp only [enumerateOne, validateSha256V4, bind_ok, ensure_ok, pure_ok] at one
  obtain ⟨_, valid, rfl⟩ := one
  exact valid

-- A collection removes candidates only.
theorem collect_kept (operation : String) (authoritative objects : List StorageObjectRef) (repository : CollectedRepository)
    (name : ObjectName) (free : name ∉ authoritative.map placeV3) :
    (collectObjects operation authoritative objects repository).2.files[name]? = repository.files[name]? := by
  induction objects generalizing repository with
  | nil => rfl
  | cons object rest ih =>
      rw [collectObjects]
      by_cases current : object ∈ authoritative
      · have apart : name ≠ placeV3 object := fun same => free (same ▸ List.mem_map.mpr ⟨object, current, rfl⟩)
        rw [if_neg (not_not.mpr current)]
        split_ifs with invalid
        · rfl
        · split
          · exact ih repository
          · rw [ih]
            exact (Keyed.lookup_erase _ _ _).trans (if_neg apart)
      · rw [if_pos current]

theorem collect_adds_none (operation : String) (authoritative objects : List StorageObjectRef) (repository : CollectedRepository)
    (name : ObjectName) (absent : repository.files[name]? = none) :
    (collectObjects operation authoritative objects repository).2.files[name]? = none := by
  induction objects generalizing repository with
  | nil => exact absent
  | cons object rest ih =>
      rw [collectObjects]
      split_ifs
      · exact absent
      · split
        · exact ih repository absent
        · refine ih _ ((Keyed.lookup_erase _ _ _).trans ?_)
          rw [absent, ite_self]
      · exact absent

theorem collect_moves (operation : String) (authoritative objects : List StorageObjectRef) (repository : CollectedRepository)
    (current : ∀ object ∈ objects, object ∈ authoritative) (valid : ∀ object ∈ authoritative, validSha256 object.sha256 = true) :
    (collectObjects operation authoritative objects repository).1 = .ok () ∧ ∀ name ∈ objects.map placeV3,
      (collectObjects operation authoritative objects repository).2.files[name]? = none := by
  induction objects generalizing repository with
  | nil => exact ⟨rfl, List.forall_mem_nil _⟩
  | cons object rest ih =>
      obtain ⟨first, others⟩ := List.forall_mem_cons.mp current
      rw [collectObjects, if_neg (not_not.mpr first), if_neg (by rw [valid object first]; decide)]
      split
      case h_1 absent =>
        exact ⟨(ih repository others).1, List.forall_mem_cons.mpr ⟨collect_adds_none _ _ _ _ _ absent, (ih repository others).2⟩⟩
      case h_2 bytes held =>
        refine ⟨(ih _ others).1, List.forall_mem_cons.mpr ⟨collect_adds_none _ _ _ _ _ ?_, (ih _ others).2⟩⟩
        exact (Keyed.lookup_erase _ _ _).trans (if_pos rfl)

variable (root : String) (repository : CollectedRepository)

-- Planning does not look at the journal of the collection.
theorem collect_planned (operation : String) (plan authoritative : GcPlan)
    (planned : planLocalGcV4 codec repository.toMarkedRepository = .ok authoritative) :
    collectLocalGcPlan codec operation plan repository =
      collectObjects operation authoritative.unreachableObjects plan.unreachableObjects
        { repository with
          journals := repository.journals.insert ("gc-" ++ operation ++ ".json") (canonicalJson codec.lib plan.toValue) } := by
  rw [collectLocalGcPlan]
  simp only [planned]

theorem shared_keeps (shared : Shared codec root repository) (operation : String) (plan : GcPlan) :
    KeepsStaged codec root repository (collectLocalGcPlan codec operation plan repository).2 := by
  intro object needed
  cases planned : planLocalGcV4 codec repository.toMarkedRepository with
  | error error =>
      rw [collectLocalGcPlan]
      simp only [planned]
  | ok authoritative =>
      rw [collect_planned repository operation plan authoritative planned]
      refine collect_kept operation _ _ _ object.name fun listed => ?_
      obtain ⟨remote, bytes, held, free⟩ := (planned_place_iff _ _ planned _).mp listed
      obtain ⟨objects, kept, inside⟩ := shared authoritative planned object needed remote bytes held
      exact free objects kept inside

theorem keeps_shared (keeps : ∀ operation plan,
    KeepsStaged codec root repository (collectLocalGcPlan codec operation plan repository).2) :
    Shared codec root repository := by
  intro plan planned object needed remote bytes held
  by_contra lost
  have listed : object.name ∈ plan.unreachableObjects.map placeV3 :=
    (planned_place_iff _ _ planned _).mpr ⟨remote, bytes, held, fun objects kept inside => lost ⟨objects, kept, inside⟩⟩
  have kept := keeps "" plan object needed
  rw [collect_planned repository "" plan plan planned, held,
    (collect_moves "" _ _ _ (fun _ member => member) (planned_valid_v4 _ _ planned)).2 _ listed] at kept
  cases kept

theorem keeps_restorable (after : CollectedRepository) (keeps : KeepsStaged codec root repository after) :
    Restorable codec root repository after := by
  intro operation directory manifest objects staged loaded graph
  exact snapshot_graph_agree codec.toMarkCodec manifest objects graph fun other among _ =>
    keeps other ⟨operation, directory, manifest, objects, staged, loaded, graph, among⟩

-- What a staged entry needs is found again as long as nothing of it has gone.
theorem staged_reach_kept (after : CollectedRepository) (staging : after.staging = repository.staging)
    (keeps : KeepsStaged codec root repository after) (object : StorageObjectRefV4)
    (needed : StagedReach codec root repository.toPurgeRepository object) :
    StagedReach codec root after.toPurgeRepository object := by
  obtain ⟨operation, directory, manifest, objects, staged, loaded, graph, inside⟩ := needed
  refine ⟨operation, directory, manifest, objects, ?_, loaded,
    keeps_restorable root repository after keeps _ _ _ _ staged loaded graph, inside⟩
  rw [PurgeRepository.stagedEntry, staging]
  exact staged

theorem collect_staging (operation : String) (authoritative objects : List StorageObjectRef) (state : CollectedRepository) :
    (collectObjects operation authoritative objects state).2.staging = state.staging := by
  induction objects generalizing state with
  | nil => rfl
  | cons object rest ih =>
      rw [collectObjects]
      split_ifs
      · rfl
      · split
        · exact ih state
        · exact ih _
      · rfl

theorem collected_staging (operation : String) (plan : GcPlan) :
    (collectLocalGcPlan codec operation plan repository).2.staging = repository.staging := by
  rw [collectLocalGcPlan]
  split
  · rfl
  · exact collect_staging operation _ _ _

-- The collections that run before the recovery, one after the other.
def collectAll (codec : PurgeCodec) (runs : List (String × GcPlan)) (repository : CollectedRepository) : CollectedRepository :=
  runs.foldl (fun state run => (collectLocalGcPlan codec run.1 run.2 state).2) repository

def SharedAlong (codec : PurgeCodec) (root : String) : List (String × GcPlan) → CollectedRepository → Prop
  | [], _ => True
  | run :: rest, repository =>
      Shared codec root repository ∧ SharedAlong codec root rest (collectLocalGcPlan codec run.1 run.2 repository).2

theorem run_keeps (runs : List (String × GcPlan)) (shared : SharedAlong codec root runs repository) :
    KeepsStaged codec root repository (collectAll codec runs repository) := by
  induction runs generalizing repository with
  | nil => exact fun _ _ => rfl
  | cons run rest ih =>
      obtain ⟨here, later⟩ := shared
      have step := shared_keeps root repository here run.1 run.2
      intro object needed
      exact (ih _ later object (staged_reach_kept root repository _
        (collected_staging repository run.1 run.2) step object needed)).trans (step object needed)

end Lost

-- A collection between the crash of a purge and its recovery takes nothing that the staged
-- entries need exactly when other roots reach all of it; collections that all find it so
-- leave entries that can be restored.
theorem staged_entries_kept_iff (codec : PurgeCodec) (root : String) :
    (∀ repository, (∀ operation plan, KeepsStaged codec root repository (collectLocalGcPlan codec operation plan repository).2) ↔
      Shared codec root repository) ∧
    ∀ repository runs, SharedAlong codec root runs repository →
      KeepsStaged codec root repository (collectAll codec runs repository) ∧
        Restorable codec root repository (collectAll codec runs repository) := by
  refine ⟨fun repository => ⟨keeps_shared root repository, shared_keeps root repository⟩, fun repository runs shared => ?_⟩
  have kept := run_keeps root repository runs shared
  exact ⟨kept, keeps_restorable root repository _ kept⟩

namespace GcSample

open PurgeSample (operation entryText overlayText overlayName purgeId short)

def rolloutText : Bytes := [123, 125, 10]

def rolloutName : String := digestBytes sampleLib rolloutText

def descriptor : SemanticThreadDescriptorV4 :=
  { schemaVersion := 4, normalizationSchemaVersion := 1, threadId := "t", title := "Thread", archived := false,
    createdAtMs := none, updatedAtMs := none,
    semanticWorkspace := ⟨none, none⟩, rollout :=
      ⟨rolloutName, 3, .whole rolloutName, "application/x-ndjson", none⟩, relatedRecords := ∅, attachments := [] }

def descriptorText : Bytes := canonicalJson sampleLib descriptor.toValue

def descriptorName : String := digestBytes sampleLib descriptorText

def root : SnapshotRootV4 := { PurgeSample.root with threads := [⟨"t", descriptorName⟩] }

def rootText : Bytes := canonicalJson sampleLib root.toValue

def decoders : Decoders where
  revisionRoot _ := .error "expected value"
  descriptor bytes := if bytes = descriptorText then .ok descriptor else .error "expected value"
  manifest _ := .error "expected value"
  overlay _ := .error "expected value"
  snapshotRoot bytes := if bytes = rootText then .ok root else .error "expected value"

def codec : PurgeCodec := { PurgeSample.codec with serde := decoders }

def directory : TrashDirectory := ((∅ : TrashDirectory).insert "entry.json" entryText).insert "snapshot.json" rootText

-- One snapshot with one thread in the trash, and the objects that it alone needs.
def repository : MarkedRepository :=
  { files := (((∅ : Files).insert (.snapshotOverlay, overlayName) overlayText).insert (.thread, descriptorName) descriptorText).insert
      (.whole, rolloutName) rolloutText,
    snapshots := ∅, trash := (∅ : Std.ExtTreeMap String TrashDirectory).insert operation directory }

def objects : List StorageObjectRefV4 :=
  [⟨.snapshotOverlay, overlayName, fileLength overlayText⟩, ⟨.thread, descriptorName, fileLength descriptorText⟩,
    ⟨.whole, rolloutName, 3⟩]

theorem overlay_held : repository.files[((.snapshotOverlay, overlayName) : ObjectName)]? = some overlayText := by
  rw [repository, Keyed.lookup_insert, if_neg (by simp), Keyed.lookup_insert, if_neg (by simp), Keyed.lookup_insert, if_pos rfl]

theorem descriptor_held : repository.files[((.thread, descriptorName) : ObjectName)]? = some descriptorText := by
  rw [repository, Keyed.lookup_insert, if_neg (by simp), Keyed.lookup_insert, if_pos rfl]

theorem listed_cases (file : ObjectName × Bytes) (member : file ∈ repository.files.toList) :
    file = ((.whole, rolloutName), rolloutText) ∨ file = ((.thread, descriptorName), descriptorText) ∨
      file = ((.snapshotOverlay, overlayName), overlayText) := by
  obtain ⟨name, bytes⟩ := file
  have held := Std.ExtTreeMap.mem_toList_iff_getElem?_eq_some.mp member
  rw [repository, Keyed.lookup_insert, Keyed.lookup_insert, Keyed.lookup_insert] at held
  split_ifs at held with whole thread overlay
  · exact .inl (by rw [whole, ← Option.some.inj held])
  · exact .inr (.inl (by rw [thread, ← Option.some.inj held]))
  · exact .inr (.inr (by rw [overlay, ← Option.some.inj held]))
  · simp at held

theorem descriptor_short : (fileLength descriptorText).toNat ≤ 8000 := by
  have digit : ∀ value < 10, (Nat.toDigits 10 value).length = 1 := by decide
  have empty : (∅ : Std.ExtTreeMap String (List Value)).toList = [] := rfl
  have narrow : ∀ name, (writeString name).length ≤ 428 → width sampleLib (SemanticThreadDescriptorV4.toValue
      { descriptor with rollout := ⟨name, 3, .whole name, "application/x-ndjson", none⟩ }) ≤ 2000 := by
    intro name digest
    simp [digit, empty, descriptor, SemanticThreadDescriptorV4.toValue, SemanticWorkspaceV4.toValue, ContentRefV4.toValue,
      StorageRefV4.toValue, Value.option, width, widthFields, widthElements, Value.nat, writeNumber, writeString,
        escapeChar] at digest ⊢
    omega
  exact short _ 2000 (narrow _ (write_digest_length sampleLib rolloutText))

theorem root_short : (fileLength rootText).toNat ≤ 8000 := by
  have digit : ∀ value < 10, (Nat.toDigits 10 value).length = 1 := by decide
  have narrow : ∀ name thread, (writeString name).length ≤ 428 → (writeString thread).length ≤ 428 →
      width sampleLib (SnapshotRootV4.toValue ⟨4, 1, "s", "now", [⟨"t", thread⟩], name, 0⟩) ≤ 2000 := by
    intro name thread digest other
    simp [digit, SnapshotRootV4.toValue, ThreadRefV4.toValue, width, widthFields, widthElements, Value.nat, writeNumber,
      writeString, escapeChar]
      at digest other ⊢
    omega
  exact short _ 2000 (narrow _ _ (write_digest_length sampleLib overlayText) (write_digest_length sampleLib descriptorText))

theorem root_valid : root.validate = .ok () := by
  have named : isBlank "t" = false := by decide
  have schema : root.schemaVersion = 4 ∧ root.normalizationSchemaVersion = 1 := ⟨rfl, rfl⟩
  have threads : root.threads = [⟨"t", descriptorName⟩] := rfl
  simp only [SnapshotRootV4.validate, schema, threads, validateThreadRefsV4, validateSha256V4, bind_ok, ensure_ok]
  exact ⟨(), ⟨trivial, trivial⟩, (), named, (), digest_bytes_valid _ _, (), List.not_mem_nil, trivial⟩

theorem content_valid : validateContentRefV4 descriptor.rollout = .ok () := by
  have typed : isBlank "application/x-ndjson" = false := by decide +kernel
  have valid : validSha256 rolloutName = true := digest_bytes_valid _ _
  have shape : descriptor.rollout = ⟨rolloutName, 3, .whole rolloutName, "application/x-ndjson", none⟩ := rfl
  simp only [validateContentRefV4, shape, validateSha256V4, bind_ok, ensure_ok]
  exact ⟨(), valid, (), typed, valid⟩

theorem graph_read : collectSnapshotGraphObjects codec.toMarkCodec repository.files root = .ok objects := by
  have small : fileLength descriptorText ≤ StorageObjectKindV4.maxBytes .thread := by
    rw [UInt64.le_iff_toNat_le]
    exact descriptor_short.trans (by decide)
  have hash : digestBytes codec.lib descriptorText = descriptorName := by rw [descriptorName, codec, PurgeSample.codec]
  have read : readJson codec.lib codec.serde.descriptor repository.files .thread descriptorName = .ok descriptor :=
    (read_json_ok _ _ _ _ _ _).mpr ⟨descriptorText,
      (read_object_ok _ _ _ _ _).mpr ⟨digest_bytes_valid _ _, descriptor_held, small, hash⟩, by simp [codec, decoders]⟩
  have valid : descriptor.validate = .ok () := by
    have schema : descriptor.schemaVersion = 4 ∧ descriptor.normalizationSchemaVersion = 1 := ⟨rfl, rfl⟩
    have named : isBlank descriptor.threadId = false := by decide +kernel
    have typed : isBlank descriptor.rollout.mediaType = false := by decide +kernel
    have alone : descriptor.contents = [descriptor.rollout] := rfl
    have plain : descriptor.relatedRecords.contains "thread_timeline_ledger" = false := Std.ExtTreeMap.contains_empty
    simp only [SemanticThreadDescriptorV4.validate, schema, named, typed, alone, plain, validateContentRefsV4, content_valid]
    rfl
  have contents : contentsObjects codec.toLocalCodec repository.files descriptor.contents = .ok [⟨.whole, rolloutName, 3⟩] := by
    have alone : descriptor.contents = [descriptor.rollout] := rfl
    have storage : descriptor.rollout.storage = .whole rolloutName := rfl
    simp only [alone, contentsObjects, contentObjects, content_valid, storage]
    rfl
  have thread : objectFile repository.files .thread descriptorName = .ok descriptorText :=
    (object_file_ok _ _ _ _).mpr ⟨digest_bytes_valid _ _, descriptor_held⟩
  simp only [collectSnapshotGraphObjects, bind_ok, pure_ok]
  refine ⟨(), root_valid, overlayText, (object_file_ok _ _ _ _).mpr ⟨digest_bytes_valid _ _, overlay_held⟩, objects.tail, ?_, rfl⟩
  simp only [root, graphThreads, bind_ok, pure_ok]
  exact ⟨descriptor, read, (), valid, descriptorText, thread, _, contents, [], rfl, rfl⟩

theorem parsed : codec.parseUuid operation = some 0x01890a5dac96774bbcceb302099a8057 := PurgeSample.parsed

theorem entry_loaded : loadTrashRoot codec.toMarkCodec (operation, directory) = .ok (operation, root) := by
  have entryRead : readBoundedV4 codec.trashEntry entryText = .ok PurgeSample.entry := PurgeSample.entry_read
  have rootRead : readBoundedV4 codec.serde.snapshotRoot rootText = .ok root := by
    simp only [readBoundedV4, bind_ok, ensure_ok]
    refine ⟨(), ?_, by simp [codec, decoders]⟩
    rw [UInt64.le_iff_toNat_le]
    exact root_short.trans (by decide)
  simp only [loadTrashRoot, bind_ok, found_ok, ensure_ok, pure_ok]
  refine ⟨_, parsed, entryText, ?_, _, entryRead, (), rfl, rootText, ?_, root, rootRead, (), root_valid, (), rfl, rfl⟩
  · rw [directory, Keyed.lookup_insert, if_neg (by decide), Keyed.lookup_insert, if_pos rfl]
  · rw [directory, Keyed.lookup_insert, if_pos rfl]

theorem trash_loaded : loadLocalTrashRoots codec.toMarkCodec repository = .ok [(operation, root)] := by
  have one : repository.trash.toList = [(operation, directory)] := Keyed.single_to_list _ _
  rw [loadLocalTrashRoots, one, List.mapM_cons, entry_loaded]
  rfl

theorem listed_names (file : ObjectName × Bytes) (member : file ∈ repository.files.toList) :
    validSha256 file.1.2 = true ∧ (fileLength file.2).toNat ≤ 8000 := by
  rcases listed_cases file member with same | same | same <;> rw [same]
  · exact ⟨digest_bytes_valid _ _, (by decide : (fileLength rolloutText).toNat ≤ 8000)⟩
  · exact ⟨digest_bytes_valid _ _, descriptor_short⟩
  · exact ⟨digest_bytes_valid _ _, PurgeSample.overlay_short.trans (by decide)⟩

theorem few_files : repository.files.toList.length ≤ 3 := by
  rw [Std.ExtTreeMap.length_toList, repository]
  refine Std.ExtTreeMap.size_insert_le.trans (Nat.succ_le_succ ?_)
  refine Std.ExtTreeMap.size_insert_le.trans (Nat.succ_le_succ ?_)
  exact Std.ExtTreeMap.size_insert_le

theorem rootless : revisionRoots repository.files = [] := by
  rw [revisionRoots, List.map_eq_nil_iff, List.filter_eq_nil_iff]
  intro file member
  rcases listed_cases file member with same | same | same <;> simp [same]

theorem enumerated (kinds : List StorageObjectKindV4) : enumerateRepositoryObjects repository.files kinds =
    .ok ((repository.files.toList.filter fun file => file.1.1 ∈ kinds).map fileRef) := by
  refine map_each_fixed _ _ _ fun file member => ?_
  simp only [enumerateOne, validateSha256V4, bind_ok, ensure_ok, pure_ok]
  exact ⟨(), (listed_names file (List.mem_filter.mp member).1).1, trivial⟩

theorem three_fit (lengths : List UInt64) (few : lengths.length ≤ 3) (each : ∀ length ∈ lengths, length.toNat ≤ 8000) :
    (lengths.map UInt64.toNat).sum < 2 ^ 64 := by
  have sum := List.sum_le_card_nsmul (lengths.map UInt64.toNat) 8000 (List.forall_mem_map.mpr each)
  rw [List.length_map, smul_eq_mul] at sum
  omega

theorem entry_counted : ∃ total, directoryBytes directory = .ok total := by
  have entryBound := PurgeSample.entry_short
  have rootBound := root_short
  have listed : directory.toList = [("entry.json", entryText), ("snapshot.json", rootText)] := by rfl
  rw [directoryBytes, listed]
  exact total_fits _ _ _ (by simp; omega)

theorem purge_planned : ∃ plan, planTrashPurge codec repository [operation] false = .ok plan ∧ plan.operationIds = [operation] := by
  obtain ⟨bytes, counted⟩ := entry_counted
  have held : repository.trash[operation]? = some directory := by rw [repository, Keyed.lookup_insert, if_pos rfl]
  have fits :=
    three_fit (((repository.files.toList.filter fun file =>
    file.1.1 ∈ StorageObjectKindV4.all).map fileRef).map StorageObjectRefV4.byteLength)
    (by rw [List.length_map, List.length_map]; exact (List.length_filter_le _ _).trans few_files) (by
      intro length member
      rw [List.map_map] at member
      obtain ⟨file, listed, same⟩ := List.mem_map.mp member
      rw [← same]
      exact (listed_names file (List.mem_filter.mp listed).1).2)
  obtain ⟨freed, planned⟩ :=
    lone_planned codec repository parsed trash_loaded held counted graph_read rfl rootless (enumerated _) fits
  exact ⟨_, planned, rfl⟩

def start : PurgeRepository :=
  { repository with formatMarker := true, purges := ∅, journals := ∅, staging := ∅, sourceIndex := none }

-- With the entry in the staging directory nothing is reached.
theorem nothing_reached :
    collectReachableObjects codec.toMarkCodec { repository with trash := repository.trash.erase operation } [] = .ok [] := by
  have empty : (repository.trash.erase operation).toList = [] := by
    refine List.eq_nil_iff_forall_not_mem.mpr fun ⟨name, other⟩ member => ?_
    have held := Std.ExtTreeMap.mem_toList_iff_getElem?_eq_some.mp member
    rw [Keyed.lookup_erase, repository, Keyed.lookup_insert] at held
    split_ifs at held
    simp at held
  have unshared : repository.snapshots.toList = [] := rfl
  simp only [collectReachableObjects, loadLocalTrashRoots, unshared, empty, rootless, List.mapM_nil, bind_ok, pure_ok]
  exact ⟨[], rfl, [], rfl, [], rfl, [], rfl, rfl⟩

theorem gc_planned : ∃ plan, planLocalGcV4 codec { repository with trash := repository.trash.erase operation } = .ok plan ∧
    ((.thread, descriptorName) : ObjectName) ∈ plan.unreachableObjects.map placeV3 := by
  let remote := (repository.files.toList.filter fun file => file.1.1 ∈ StorageObjectKindV4.remote).map fileRef
  let unreachable := ((remote.filter fun object => object ∉ ([] : List StorageObjectRefV4)).filterMap refV3).insertionSort refOrder
  have few : unreachable.length ≤ 3 := by
    rw [List.length_insertionSort]
    refine (List.length_filterMap_le _ _).trans ((List.length_filter_le _ _).trans ?_)
    rw [List.length_map]
    exact (List.length_filter_le _ _).trans few_files
  have each : ∀ length ∈ unreachable.map StorageObjectRef.byteLength, length.toNat ≤ 8000 := by
    refine List.forall_mem_map.mpr fun object member => ?_
    obtain ⟨origin, listed, named⟩ := List.mem_filterMap.mp ((List.mem_insertionSort _).mp member)
    obtain ⟨file, held, rfl⟩ := List.mem_map.mp (List.mem_filter.mp listed).1
    obtain ⟨kind, _, rfl⟩ := Option.map_eq_some_iff.mp named
    exact (listed_names file (List.mem_filter.mp held).1).2
  obtain ⟨total, fits⟩ := total_fits "GC byte count overflow" (unreachable.map StorageObjectRef.byteLength) 0
    (by simpa using three_fit _ (by rwa [List.length_map]) each)
  have planned : planLocalGcV4 codec { repository with trash := repository.trash.erase operation } =
      .ok ⟨4, codec.now, 0, unreachable, total⟩ := by
    simp only [planLocalGcV4, nothing_reached, enumerated, bind_ok, pure_ok]
    exact ⟨[], rfl, remote, rfl, total, fits, rfl⟩
  refine ⟨_, planned, (planned_place_iff _ _ planned _).mpr ⟨
    by decide, descriptorText, descriptor_held, fun objects kept inside => ?_⟩⟩
  obtain ⟨snapshots, trash, revisions, roots, parts⟩ := (reachable_parts _ _ _ _).mp nothing_reached
  exact List.not_mem_nil ((reached_iff parts _).mpr ⟨objects, kept, inside⟩)

-- A purge stops with the entry staged, and a collection then takes the thread of the
-- snapshot that the recovery will put back.
theorem staged_thread_collected : ∃ plan after gc, planTrashPurge codec repository [operation] false = .ok plan ∧
    (purgeLocalTrash codec purgeId plan).Cut ⟨start, []⟩ ⟨after, []⟩ ∧ after.purges[purgeId]? = some (newPurge codec purgeId plan) ∧
    ¬Committed purgeId after ∧
    StagedReach codec (stagingRootOf codec purgeId) after ⟨.thread, descriptorName, fileLength descriptorText⟩ ∧
    planLocalGcV4 codec after.toMarkedRepository = .ok gc ∧
    (collectLocalGcPlan codec operation gc ⟨after, ∅⟩).1 = .ok () ∧
    after.files[((.thread, descriptorName) : ObjectName)]? = some descriptorText ∧
    (collectLocalGcPlan codec operation gc ⟨after, ∅⟩).2.files[((.thread, descriptorName) : ObjectName)]? = none ∧
    ¬KeepsStaged codec (stagingRootOf codec purgeId) ⟨after, ∅⟩ (collectLocalGcPlan codec operation gc ⟨after, ∅⟩).2 := by
  obtain ⟨plan, planned, listed⟩ := purge_planned
  have settled : SettledPurges codec start := settled_without rfl
  have held : start.trash[operation]? = some directory := by rw [start, repository, Keyed.lookup_insert, if_pos rfl]
  have quiet := plan_quiet settled rfl rfl [operation] planned
  rw [← listed] at quiet
  obtain ⟨after, cut, marked, purges, staged⟩ :=
    purge_stages operation [] directory listed held settled Std.ExtTreeMap.getElem?_empty quiet
  have same : after.toMarkedRepository = { repository with trash := repository.trash.erase operation } := marked
  have journal : after.purges[purgeId]? = some (newPurge codec purgeId plan) := by rw [purges, Keyed.lookup_insert, if_pos rfl]
  have files : after.files = repository.files := by rw [same]
  obtain ⟨gc, collects, taken⟩ := gc_planned
  rw [← same] at collects
  have needed : StagedReach codec (stagingRootOf codec purgeId) after ⟨.thread, descriptorName, fileLength descriptorText⟩ :=
    ⟨operation, directory, root, objects, staged, entry_loaded, by rw [files]; exact graph_read, by simp [objects]⟩
  have ran := collect_planned ⟨after, ∅⟩ operation gc gc collects
  have moved := collect_moves operation gc.unreachableObjects gc.unreachableObjects
    { (⟨after, ∅⟩ : CollectedRepository) with
      journals := after.journals.insert ("gc-" ++ operation ++ ".json") (canonicalJson codec.lib gc.toValue) }
    (fun _ member => member) (planned_valid_v4 _ _ collects)
  have stored : after.files[((.thread, descriptorName) : ObjectName)]? = some descriptorText := by rw [files, descriptor_held]
  have gone : (collectLocalGcPlan codec operation gc ⟨after, ∅⟩).2.files[((.thread, descriptorName) : ObjectName)]? = none := by
    rw [ran]
    exact moved.2 _ taken
  refine ⟨plan, after, gc, planned, cut, journal, fun committed => ?_, needed, collects,
    by rw [ran]; exact moved.1, stored, gone, fun keeps => ?_⟩
  · obtain ⟨other, written, status⟩ := committed
    rw [journal, Option.some.injEq] at written
    subst written
    simp [newPurge, Committing] at status
  · have lost := gone.symm.trans ((keeps _ needed).trans stored)
    cases lost

end GcSample

end SessionSync.Storage
