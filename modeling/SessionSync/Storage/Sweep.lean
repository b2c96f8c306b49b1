import SessionSync.Storage.Content
import SessionSync.Storage.Mark

set_option autoImplicit false

namespace SessionSync.Storage

open SessionSync.Core Checked

variable (codec : MarkCodec)

-- The files that are left once those of some names are gone.
def without (files : Files) (gone : List ObjectName) : Files := files.filter fun name _ => name ∉ gone

theorem lookup_without (files : Files) (gone : List ObjectName) (name : ObjectName) :
    (without files gone)[name]? = if name ∈ gone then none else files[name]? := by
  rw [without, Std.ExtTreeMap.getElem?_filter']
  by_cases lost : name ∈ gone
  · rw [if_pos lost]
    cases files[name]? <;> simp [lost]
  · rw [if_neg lost]
    cases files[name]? <;> simp [lost]

-- The kinds of objects that are read to find others.
def Structural (kind : StorageObjectKindV4) : Prop := kind ≠ .chunk ∧ kind ≠ .whole

def Agrees (objects : List StorageObjectRefV4) (files later : Files) : Prop :=
  ∀ object ∈ objects, Structural object.kind → later[object.name]? = files[object.name]?

section Agree

variable {files later : Files}

theorem agrees_append (left right : List StorageObjectRefV4) (agrees : Agrees (left ++ right) files later) :
    Agrees left files later ∧ Agrees right files later :=
  ⟨fun object member => agrees object (List.mem_append_left _ member), fun object member =>
    agrees object (List.mem_append_right _ member)⟩

theorem agrees_cons (object : StorageObjectRefV4) (rest : List StorageObjectRefV4) (agrees : Agrees (object :: rest) files later) :
    (Structural object.kind → later[object.name]? = files[object.name]?) ∧ Agrees rest files later :=
  ⟨agrees object List.mem_cons_self, fun other member => agrees other (List.mem_cons_of_mem _ member)⟩

theorem object_file_same (kind : StorageObjectKindV4) (sha256 : String)
    (same : later[((kind, sha256) : ObjectName)]? = files[((kind, sha256) : ObjectName)]?) :
    objectFile later kind sha256 = objectFile files kind sha256 := by
  unfold objectFile
  rw [same]

theorem read_json_same {α : Type} (lib : Primitives) (decode : Bytes → Except String α) (kind : StorageObjectKindV4) (sha256 : String)
    (same : later[((kind, sha256) : ObjectName)]? = files[((kind, sha256) : ObjectName)]?) :
    readJson lib decode later kind sha256 = readJson lib decode files kind sha256 := by
  rw [readJson, readJson, readObject, readObject, object_file_same kind sha256 same]

theorem content_objects_agree (content : ContentRefV4) (objects : List StorageObjectRefV4)
    (run : contentObjects codec.toLocalCodec files content = .ok objects) (agrees : Agrees objects files later) :
    contentObjects codec.toLocalCodec later content = .ok objects := by
  cases storage : content.storage with
  | whole name =>
      unfold contentObjects at run ⊢
      rw [storage] at run ⊢
      exact run
  | chunked name =>
      have again := run
      unfold contentObjects at run ⊢
      simp only [storage, bind_ok, pure_ok] at run
      obtain ⟨_, _, manifest, _, _, _, _, _, rfl⟩ := run
      have same := (agrees_cons _ _ agrees).1 ⟨by simp, by simp⟩
      simp only [storage, read_json_same codec.lib codec.serde.manifest .chunkManifest name same]
      unfold contentObjects at again
      simp only [storage] at again
      exact again

theorem contents_objects_agree (contents : List ContentRefV4) (objects : List StorageObjectRefV4)
    (run : contentsObjects codec.toLocalCodec files contents = .ok objects) (agrees : Agrees objects files later) :
    contentsObjects codec.toLocalCodec later contents = .ok objects := by
  induction contents generalizing objects with
  | nil => exact run
  | cons content rest ih =>
      simp only [contentsObjects, bind_ok, pure_ok] at run ⊢
      obtain ⟨first, one, others, many, rfl⟩ := run
      obtain ⟨here, there⟩ := agrees_append _ _ agrees
      exact ⟨first, content_objects_agree codec content first one here, others, ih others many there, rfl⟩

theorem graph_threads_agree (references : List ThreadRefV4) (objects : List StorageObjectRefV4)
    (run : graphThreads codec files references = .ok objects) (agrees : Agrees objects files later) :
    graphThreads codec later references = .ok objects := by
  induction references generalizing objects with
  | nil => exact run
  | cons reference rest ih =>
      simp only [graphThreads, bind_ok, pure_ok] at run ⊢
      obtain ⟨descriptor, read, _, valid, bytes, held, contents, one, others, many, rfl⟩ := run
      obtain ⟨here, there⟩ := agrees_append _ _ agrees
      obtain ⟨own, below⟩ := agrees_cons _ _ here
      have same := own ⟨by simp, by simp⟩
      refine ⟨descriptor, ?_, (), valid, bytes, ?_, contents, contents_objects_agree codec _ contents one below, others,
        ih others many there, rfl⟩
      · rw [read_json_same codec.lib codec.serde.descriptor .thread _ same]
        exact read
      · rw [object_file_same .thread _ same]
        exact held

theorem snapshot_graph_agree (root : SnapshotRootV4) (objects : List StorageObjectRefV4)
    (run : collectSnapshotGraphObjects codec files root = .ok objects) (agrees : Agrees objects files later) :
    collectSnapshotGraphObjects codec later root = .ok objects := by
  simp only [collectSnapshotGraphObjects, bind_ok, pure_ok] at run ⊢
  obtain ⟨_, valid, overlay, held, threads, many, rfl⟩ := run
  obtain ⟨own, below⟩ := agrees_cons _ _ agrees
  refine ⟨(), valid, overlay, ?_, threads, graph_threads_agree codec _ threads many below, rfl⟩
  rw [object_file_same .snapshotOverlay _ (own ⟨by simp, by simp⟩)]
  exact held

theorem revision_graph_agree (revisionId : String) (objects : List StorageObjectRefV4)
    (run : collectRevisionGraphObjects codec files revisionId = .ok objects) (agrees : Agrees objects files later) :
    collectRevisionGraphObjects codec later revisionId = .ok objects := by
  simp only [collectRevisionGraphObjects, bind_ok, pure_ok] at run ⊢
  obtain ⟨root, read, _, valid, bytes, held, threads, many, rfl⟩ := run
  obtain ⟨own, below⟩ := agrees_cons _ _ agrees
  have same := own ⟨by simp, by simp⟩
  refine ⟨root, ?_, (), valid, bytes, ?_, threads, graph_threads_agree codec _ threads many below, rfl⟩
  · rw [read_json_same codec.lib codec.serde.revisionRoot .revisionRoot _ same]
    exact read
  · rw [object_file_same .revisionRoot _ same]
    exact held

end Agree

section Sized

-- Every manifest of chunks is stored as the store itself writes it.
def CanonicalManifests (files : Files) : Prop :=
  ∀ sha256 bytes manifest, files[((.chunkManifest, sha256) : ObjectName)]? = some bytes → codec.serde.manifest bytes = .ok manifest →
    fileLength (canonicalJson codec.lib manifest.toValue) = fileLength bytes

-- The object is there, with the length that the reference gives.
def Stored (files : Files) (object : StorageObjectRefV4) : Prop :=
  ∃ bytes, files[object.name]? = some bytes ∧ fileRef (object.name, bytes) = object

-- What is read to find others is recorded with the length of its file.
def Sized (files : Files) (objects : List StorageObjectRefV4) : Prop :=
  ∀ object ∈ objects, Structural object.kind → Stored files object

variable {files : Files}

theorem sized_append (left right : List StorageObjectRefV4) (first : Sized files left) (second : Sized files right) :
    Sized files (left ++ right) :=
  fun object member => (List.mem_append.mp member).elim (first object) (second object)

theorem sized_cons (kind : StorageObjectKindV4) (sha256 : String) (bytes : Bytes) (rest : List StorageObjectRefV4)
    (held : files[((kind, sha256) : ObjectName)]? = some bytes) (later : Sized files rest) :
    Sized files (⟨kind, sha256, fileLength bytes⟩ :: rest) := by
  intro object member structural
  rcases List.mem_cons.mp member with rfl | below
  · exact ⟨bytes, held, rfl⟩
  · exact later object below structural

theorem content_objects_sized (canonical : CanonicalManifests codec files) (content : ContentRefV4)
    (objects : List StorageObjectRefV4) (run : contentObjects codec.toLocalCodec files content = .ok objects) :
    Sized files objects := by
  cases storage : content.storage with
  | whole name =>
      unfold contentObjects at run
      simp only [storage, bind_ok, pure_ok] at run
      obtain ⟨_, _, rfl⟩ := run
      intro object member structural
      rw [List.mem_singleton.mp member] at structural
      exact absurd rfl structural.2
  | chunked name =>
      unfold contentObjects at run
      simp only [storage, bind_ok, pure_ok, read_json_ok, read_object_ok] at run
      obtain ⟨_, _, manifest, ⟨bytes, ⟨_, held, _⟩, decoded⟩, _, _, _, _, rfl⟩ := run
      rw [canonical name bytes manifest held decoded]
      refine sized_cons .chunkManifest name bytes _ held fun object member structural => ?_
      obtain ⟨chunk, _, rfl⟩ := List.mem_map.mp member
      exact absurd rfl structural.1

theorem contents_objects_sized (canonical : CanonicalManifests codec files) (contents : List ContentRefV4)
    (objects : List StorageObjectRefV4) (run : contentsObjects codec.toLocalCodec files contents = .ok objects) :
    Sized files objects := by
  induction contents generalizing objects with
  | nil =>
      cases run
      exact fun _ impossible => by cases impossible
  | cons content rest ih =>
      simp only [contentsObjects, bind_ok, pure_ok] at run
      obtain ⟨first, one, others, many, rfl⟩ := run
      exact sized_append _ _ (content_objects_sized codec canonical content first one) (ih others many)

theorem graph_threads_sized (canonical : CanonicalManifests codec files) (references : List ThreadRefV4)
    (objects : List StorageObjectRefV4) (run : graphThreads codec files references = .ok objects) : Sized files objects := by
  induction references generalizing objects with
  | nil =>
      cases run
      exact fun _ impossible => by cases impossible
  | cons reference rest ih =>
      simp only [graphThreads, bind_ok, pure_ok, object_file_ok] at run
      obtain ⟨descriptor, _, _, _, bytes, ⟨_, held⟩, contents, one, others, many, rfl⟩ := run
      exact sized_append _ _ (sized_cons .thread _ bytes _ held (contents_objects_sized codec canonical _ contents one))
        (ih others many)

theorem snapshot_graph_sized (canonical : CanonicalManifests codec files) (root : SnapshotRootV4) (objects : List StorageObjectRefV4)
    (run : collectSnapshotGraphObjects codec files root = .ok objects) : Sized files objects := by
  simp only [collectSnapshotGraphObjects, bind_ok, pure_ok, object_file_ok] at run
  obtain ⟨_, _, overlay, ⟨_, held⟩, threads, many, rfl⟩ := run
  exact sized_cons .snapshotOverlay _ overlay _ held (graph_threads_sized codec canonical _ threads many)

theorem revision_graph_sized (canonical : CanonicalManifests codec files) (revisionId : String) (objects : List StorageObjectRefV4)
    (run : collectRevisionGraphObjects codec files revisionId = .ok objects) : Sized files objects := by
  simp only [collectRevisionGraphObjects, bind_ok, pure_ok, object_file_ok] at run
  obtain ⟨root, _, _, _, bytes, ⟨_, held⟩, threads, many, rfl⟩ := run
  exact sized_cons .revisionRoot _ bytes _ held (graph_threads_sized codec canonical _ threads many)

end Sized

section Loops

variable {ε α β : Type}

theorem map_each_transfer (step other : α → Except ε β) (items : List α) (results : List β) (run : items.mapM step = .ok results)
    (each : ∀ item ∈ items, ∀ result ∈ results, step item = .ok result → other item = .ok result) :
    items.mapM other = .ok results := by
  induction items generalizing results with
  | nil => exact run
  | cons item rest ih =>
      obtain ⟨first, tail⟩ := List.forall_mem_cons.mp each
      simp only [List.mapM_cons, bind_ok, pure_ok] at run ⊢
      obtain ⟨result, one, others, many, rfl⟩ := run
      exact ⟨result, first result List.mem_cons_self one, others,
        ih others many fun item member result among => tail item member result (List.mem_cons_of_mem _ among), rfl⟩

theorem map_each_result (step : α → Except ε β) (items : List α) (results : List β) (run : items.mapM step = .ok results) (item : α)
    (member : item ∈ items) (result : β) (one : step item = .ok result) : result ∈ results := by
  induction items generalizing results with
  | nil => cases member
  | cons first rest ih =>
      simp only [List.mapM_cons, bind_ok, pure_ok] at run
      obtain ⟨head, here, others, many, rfl⟩ := run
      rcases List.mem_cons.mp member with rfl | later
      · rw [one, Except.ok.injEq] at here
        rw [here]
        exact List.mem_cons_self
      · exact List.mem_cons_of_mem _ (ih others many later)

theorem map_each_filter (step : α → Except ε β) (keep : α → Bool) (kept : β → Bool) (items : List α) (results : List β)
    (run : items.mapM step = .ok results) (each : ∀ item ∈ items, ∀ result, step item = .ok result → kept result = keep item) :
    (items.filter keep).mapM step = .ok (results.filter kept) := by
  induction items generalizing results with
  | nil =>
      cases run
      rfl
  | cons item rest ih =>
      obtain ⟨first, tail⟩ := List.forall_mem_cons.mp each
      simp only [List.mapM_cons, bind_ok, pure_ok] at run
      obtain ⟨result, one, others, many, rfl⟩ := run
      have later := ih others many tail
      by_cases here : keep item = true
      · rw [List.filter_cons_of_pos here, List.filter_cons_of_pos ((first result one).trans here)]
        simp only [List.mapM_cons, bind_ok, pure_ok]
        exact ⟨result, one, _, later, rfl⟩
      · rw [List.filter_cons_of_neg here, List.filter_cons_of_neg (by rw [first result one]; exact here)]
        exact later

end Loops

section Reached

-- Files that the walk did not reach.
def Unreached (files : Files) (reached candidates : List StorageObjectRefV4) : Prop :=
  ∀ object ∈ candidates, Stored files object ∧ object ∉ reached

structure Parts (repository : MarkedRepository) (excluded : List String) (reached : List StorageObjectRefV4)
    (snapshots trash revisions : List (List StorageObjectRefV4)) (roots : List (String × SnapshotRootV4)) : Prop where
  snapshotsRun : repository.snapshots.toList.mapM (collectSnapshot codec repository.files) = .ok snapshots
  rootsRun : loadLocalTrashRoots codec repository = .ok roots
  trashRun : ((roots.filter fun root => root.1 ∉ excluded).mapM fun root =>
    collectSnapshotGraphObjects codec repository.files root.2) = .ok trash
  revisionsRun : (revisionRoots repository.files).mapM (collectRevisionGraphObjects codec repository.files) = .ok revisions
  whole : reached = snapshots.flatten ++ trash.flatten ++ revisions.flatten

theorem reachable_parts (repository : MarkedRepository) (excluded : List String) (reached : List StorageObjectRefV4) :
    collectReachableObjects codec repository excluded = .ok reached ↔
      ∃ snapshots trash revisions roots, Parts codec repository excluded reached snapshots trash revisions roots := by
  simp only [collectReachableObjects, bind_ok, pure_ok]
  constructor
  · intro run
    obtain ⟨snapshots, one, roots, loaded, trash, two, revisions, three, whole⟩ := run
    exact ⟨snapshots, trash, revisions, roots, one, loaded, two, three, whole.symm⟩
  · intro parts
    obtain ⟨snapshots, trash, revisions, roots, parts⟩ := parts
    exact ⟨snapshots, parts.snapshotsRun, roots, parts.rootsRun, trash, parts.trashRun, revisions, parts.revisionsRun,
      parts.whole.symm⟩

variable {codec} {repository : MarkedRepository} {excluded : List String} {reached : List StorageObjectRefV4}
  {snapshots trash revisions : List (List StorageObjectRefV4)} {roots : List (String × SnapshotRootV4)}

-- A graph that a root which is kept spans.
inductive KeptGraph (codec : MarkCodec) (repository : MarkedRepository) (excluded : List String)
    (objects : List StorageObjectRefV4) : Prop where
  | snapshot (name : String) (manifest : Bytes) (root : SnapshotRootV4) (held : repository.snapshots[name]? = some manifest)
      (decoded : readBoundedV4 codec.serde.snapshotRoot manifest = .ok root)
      (graph : collectSnapshotGraphObjects codec repository.files root = .ok objects)
  | trash (operation : String) (directory : TrashDirectory) (root : SnapshotRootV4)
      (held : repository.trash[operation]? = some directory)
      (kept : operation ∉ excluded) (loaded : loadTrashRoot codec (operation, directory) = .ok (operation, root))
      (graph : collectSnapshotGraphObjects codec repository.files root = .ok objects)
  | revision (revisionId : String) (bytes : Bytes) (held : repository.files[((.revisionRoot, revisionId) : ObjectName)]? = some bytes)
      (graph : collectRevisionGraphObjects codec repository.files revisionId = .ok objects)

theorem collect_snapshot_ok (files : Files) (manifest : String × Bytes) (objects : List StorageObjectRefV4) :
    collectSnapshot codec files manifest = .ok objects ↔
      ∃ root, readBoundedV4 codec.serde.snapshotRoot manifest.2 = .ok root ∧
        collectSnapshotGraphObjects codec files root = .ok objects := by
  rw [collectSnapshot, bind_ok]

-- A file that is removed is none that was reached as it is stored.
theorem reached_stays (candidates : List StorageObjectRefV4) (unreached : Unreached repository.files reached candidates)
    (gone : List ObjectName) (among : ∀ name ∈ gone, name ∈ candidates.map StorageObjectRefV4.name) (object : StorageObjectRefV4)
    (member : object ∈ reached) (stored : Stored repository.files object) : object.name ∉ gone := by
  intro lost
  obtain ⟨candidate, listed, same⟩ := List.mem_map.mp (among _ lost)
  obtain ⟨⟨bytes, held, own⟩, free⟩ := unreached candidate listed
  obtain ⟨other, there, whole⟩ := stored
  rw [same] at held own
  rw [there, Option.some.injEq] at held
  rw [← own, ← held, whole] at free
  exact free member

theorem unreached_agrees (sized : Sized repository.files reached) (candidates : List StorageObjectRefV4)
    (unreached : Unreached repository.files reached candidates) (gone : List ObjectName)
    (among : ∀ name ∈ gone, name ∈ candidates.map StorageObjectRefV4.name) :
    Agrees reached repository.files (without repository.files gone) := by
  intro object member structural
  rw [lookup_without, if_neg (reached_stays candidates unreached gone among object member (sized object member structural))]

theorem mem_revision_roots (files : Files) (revisionId : String) :
    revisionId ∈ revisionRoots files ↔ ∃ bytes, files[((.revisionRoot, revisionId) : ObjectName)]? = some bytes := by
  rw [revisionRoots, List.mem_map]
  constructor
  · intro listed
    obtain ⟨file, member, same⟩ := listed
    obtain ⟨held, root⟩ := List.mem_filter.mp member
    obtain ⟨⟨kind, sha256⟩, bytes⟩ := file
    have kindSame : kind = .revisionRoot := of_decide_eq_true root
    exact ⟨bytes, kindSame ▸ same ▸ Std.ExtTreeMap.mem_toList_iff_getElem?_eq_some.mp held⟩
  · intro held
    obtain ⟨bytes, held⟩ := held
    exact ⟨((.revisionRoot, revisionId), bytes),
      List.mem_filter.mpr ⟨Std.ExtTreeMap.mem_toList_iff_getElem?_eq_some.mpr held, decide_eq_true rfl⟩, rfl⟩

theorem load_trash_root_named (entry : String × TrashDirectory) (root : String × SnapshotRootV4)
    (run : loadTrashRoot codec entry = .ok root) : root.1 = entry.1 := by
  simp only [loadTrashRoot, bind_ok, pure_ok] at run
  obtain ⟨_, _, _, _, _, _, _, _, _, _, _, _, _, _, _, _, rfl⟩ := run
  rfl

theorem kept_graph_runs (parts : Parts codec repository excluded reached snapshots trash revisions roots)
    (objects : List StorageObjectRefV4) :
    KeptGraph codec repository excluded objects ↔ objects ∈ snapshots ∨ objects ∈ trash ∨ objects ∈ revisions := by
  constructor
  · intro kept
    cases kept with
    | snapshot name manifest root held decoded graph =>
        exact .inl (map_each_result _ _ _ parts.snapshotsRun (name, manifest)
          (Std.ExtTreeMap.mem_toList_iff_getElem?_eq_some.mpr held)
          objects ((collect_snapshot_ok _ _ _).mpr ⟨root, decoded, graph⟩))
    | trash operation directory root held kept loaded graph =>
        have listed := map_each_result _ _ _ parts.rootsRun (operation,
          directory) (Std.ExtTreeMap.mem_toList_iff_getElem?_eq_some.mpr held) _ loaded
        exact .inr (.inl (map_each_result _ _ _ parts.trashRun (operation, root)
          (List.mem_filter.mpr ⟨listed, decide_eq_true kept⟩) objects graph))
    | revision revisionId bytes held graph =>
        exact .inr (.inr (map_each_result _ _ _ parts.revisionsRun revisionId
          ((mem_revision_roots _ _).mpr ⟨bytes, held⟩) objects graph))
  · intro listed
    rcases listed with listed | listed | listed
    · obtain ⟨⟨name, manifest⟩, member, ran⟩ := map_each_mem _ _ _ parts.snapshotsRun objects listed
      obtain ⟨root, decoded, graph⟩ := (collect_snapshot_ok _ _ _).mp ran
      exact .snapshot name manifest root (Std.ExtTreeMap.mem_toList_iff_getElem?_eq_some.mp member) decoded graph
    · obtain ⟨⟨operation, root⟩, member, graph⟩ := map_each_mem _ _ _ parts.trashRun objects listed
      obtain ⟨loaded, kept⟩ := List.mem_filter.mp member
      obtain ⟨⟨name, directory⟩, inside, ran⟩ := map_each_mem _ _ _ parts.rootsRun _ loaded
      have same : operation = name := load_trash_root_named _ _ ran
      subst same
      exact .trash operation directory root (Std.ExtTreeMap.mem_toList_iff_getElem?_eq_some.mp inside)
        (of_decide_eq_true kept) ran graph
    · obtain ⟨revisionId, member, graph⟩ := map_each_mem _ _ _ parts.revisionsRun objects listed
      obtain ⟨bytes, held⟩ := (mem_revision_roots _ _).mp member
      exact .revision revisionId bytes held graph

-- What is reached is what the graphs of the kept roots hold.
theorem reached_iff (parts : Parts codec repository excluded reached snapshots trash revisions roots) (object : StorageObjectRefV4) :
    object ∈ reached ↔ ∃ objects, KeptGraph codec repository excluded objects ∧ object ∈ objects := by
  simp only [kept_graph_runs parts, parts.whole, List.mem_append, List.mem_flatten, or_and_right, exists_or, or_assoc]

theorem kept_graph_sized (canonical : CanonicalManifests codec repository.files) (objects : List StorageObjectRefV4)
    (kept : KeptGraph codec repository excluded objects) : Sized repository.files objects := by
  cases kept with
  | snapshot _ _ root _ _ graph => exact snapshot_graph_sized codec canonical root objects graph
  | trash _ _ root _ _ _ graph => exact snapshot_graph_sized codec canonical root objects graph
  | revision revisionId _ _ graph => exact revision_graph_sized codec canonical revisionId objects graph

theorem parts_sized (parts : Parts codec repository excluded reached snapshots trash revisions roots)
    (canonical : CanonicalManifests codec repository.files) : Sized repository.files reached := by
  intro object member
  obtain ⟨objects, kept, inside⟩ := (reached_iff parts object).mp member
  exact kept_graph_sized canonical objects kept object inside

theorem revision_root_reached (parts : Parts codec repository excluded reached snapshots trash revisions roots) (sha256 : String)
    (bytes : Bytes) (held : repository.files[((.revisionRoot, sha256) : ObjectName)]? = some bytes) :
    fileRef ((.revisionRoot, sha256), bytes) ∈ reached := by
  obtain ⟨objects, ran⟩ := (map_each_iff _ _).mp ⟨revisions, parts.revisionsRun⟩ sha256 ((mem_revision_roots _ _).mpr ⟨bytes, held⟩)
  refine (reached_iff parts _).mpr ⟨objects, .revision sha256 bytes held ran, ?_⟩
  simp only [collectRevisionGraphObjects, bind_ok, pure_ok, object_file_ok] at ran
  obtain ⟨_, _, _, _, own, ⟨_, there⟩, threads, _, rfl⟩ := ran
  rw [held, Option.some.injEq] at there
  rw [there]
  exact List.mem_cons_self

theorem revision_roots_without (parts : Parts codec repository excluded reached snapshots trash revisions roots)
    (candidates : List StorageObjectRefV4) (unreached : Unreached repository.files reached candidates) (gone : List ObjectName)
    (among : ∀ name ∈ gone, name ∈ candidates.map StorageObjectRefV4.name) :
    revisionRoots (without repository.files gone) = revisionRoots repository.files := by
  rw [revisionRoots, revisionRoots, without, Std.ExtTreeMap.toList_filter, List.filter_filter]
  congr 1
  refine List.filter_congr fun file member => ?_
  obtain ⟨⟨kind, sha256⟩, bytes⟩ := file
  by_cases root : kind = .revisionRoot
  · subst root
    have held := Std.ExtTreeMap.mem_toList_iff_getElem?_eq_some.mp member
    have kept : ((.revisionRoot, sha256) : ObjectName) ∉ gone :=
      reached_stays candidates unreached gone among _ (revision_root_reached parts sha256 bytes held) ⟨bytes, held, rfl⟩
    simp [kept]
  · simp [root]

theorem kept_roots (parts : Parts codec repository excluded reached snapshots trash revisions roots) (later : Files) :
    loadLocalTrashRoots codec ⟨later, repository.snapshots, repository.trash.filter fun operation _ => operation ∉ excluded⟩ =
      .ok (roots.filter fun root => root.1 ∉ excluded) := by
  rw [loadLocalTrashRoots, Std.ExtTreeMap.toList_filter]
  exact map_each_filter (loadTrashRoot codec) _ _ _ roots parts.rootsRun fun entry _ root ran =>
    by rw [load_trash_root_named entry root ran]

-- What was reached is reached as before once the unreached is gone.
theorem swept_reachable (ran : collectReachableObjects codec repository excluded = .ok reached)
    (canonical : CanonicalManifests codec repository.files) (candidates : List StorageObjectRefV4)
    (unreached : Unreached repository.files reached candidates) (gone : List ObjectName)
    (among : ∀ name ∈ gone, name ∈ candidates.map StorageObjectRefV4.name) :
    collectReachableObjects codec
      ⟨without repository.files gone, repository.snapshots, repository.trash.filter fun operation _ => operation ∉ excluded⟩ [] =
        .ok reached := by
  obtain ⟨snapshots, trash, revisions, roots, parts⟩ := (reachable_parts codec repository excluded reached).mp ran
  have agrees := unreached_agrees (parts_sized parts canonical) candidates unreached gone among
  rw [parts.whole] at agrees
  obtain ⟨early, agreesRevisions⟩ := agrees_append _ _ agrees
  obtain ⟨agreesSnapshots, agreesTrash⟩ := agrees_append _ _ early
  have inside : ∀ (lists : List (List StorageObjectRefV4)) (objects : List StorageObjectRefV4), objects ∈ lists →
      Agrees lists.flatten repository.files (without repository.files gone) →
        Agrees objects repository.files (without repository.files gone) :=
    fun lists objects listed agrees object member => agrees object (List.mem_flatten.mpr ⟨objects, listed, member⟩)
  refine (reachable_parts codec _ [] reached).mpr ⟨snapshots, trash, revisions, roots.filter fun root =>
    root.1 ∉ excluded, ?_, ?_, ?_, ?_, parts.whole⟩
  · refine map_each_transfer _ _ _ snapshots parts.snapshotsRun fun manifest _ objects listed one => ?_
    obtain ⟨root, read, graph⟩ := (collect_snapshot_ok _ _ _).mp one
    exact (collect_snapshot_ok _ _ _).mpr
      ⟨root, read, snapshot_graph_agree codec root objects graph (inside _ _ listed agreesSnapshots)⟩
  · exact kept_roots parts _
  · have all : (roots.filter fun root => root.1 ∉ excluded).filter (fun root => root.1 ∉ ([] : List String)) =
        roots.filter fun root => root.1 ∉ excluded := List.filter_eq_self.mpr fun root _ => by simp
    rw [all]
    exact map_each_transfer _ _ _ trash parts.trashRun fun root _ objects listed one =>
      snapshot_graph_agree codec root.2 objects one (inside _ _ listed agreesTrash)
  · rw [revision_roots_without parts candidates unreached gone among]
    exact map_each_transfer _ _ _ revisions parts.revisionsRun fun revisionId _ objects listed one =>
      revision_graph_agree codec revisionId objects one (inside _ _ listed agreesRevisions)

end Reached

end SessionSync.Storage
