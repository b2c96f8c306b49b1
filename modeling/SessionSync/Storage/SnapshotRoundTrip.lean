import SessionSync.Storage.CanonicalDecoders
import SessionSync.Core.JsonLength
import SessionSync.Core.Sha256
import Mathlib.Data.List.Perm.Basic

set_option autoImplicit false

namespace SessionSync.Storage

open SessionSync.Core Checked

variable (lib : Primitives) (serde : Decoders) (reread : UInt64 → UInt64)

theorem store_descriptor_ok (files later : Files) (contents : Contents) (thread : ThreadBundle) (content : ContentRefV4)
    (reference : ThreadRefV4) (named : contents[thread.threadId]? = some content)
    (stored : storeDescriptor lib files thread content = .ok (reference, later)) :
    Extends files later ∧ StoredAs lib later contents thread reference := by
  simp only [storeDescriptor, bind_ok, pure_ok, Prod.mk.injEq, Prod.exists] at stored
  obtain ⟨descriptor, built, _, valid, object, after, kept, rfl, rfl⟩ := stored
  obtain ⟨rfl, extended, read⟩ := store_json_ok lib files after .thread _ object kept
  exact ⟨extended, content, descriptor, named, built, valid, rfl, read⟩

theorem stored_extends (files later : Files) (contents : Contents) (extended : Extends files later) (thread : ThreadBundle)
    (reference : ThreadRefV4) (stored : StoredAs lib files contents thread reference) :
    StoredAs lib later contents thread reference := by
  obtain ⟨content, descriptor, named, built, valid, same, read⟩ := stored
  exact ⟨content, descriptor, named, built, valid, same, read_object_extends lib files later extended _ _ _ read⟩

theorem store_threads_ok (contents : Contents) (threads : List ThreadBundle) (files later : Files) (references : List ThreadRefV4)
    (stored : storeThreads lib contents threads files = .ok (references, later)) :
    Extends files later ∧ List.Forall₂ (StoredAs lib later contents) threads references := by
  induction threads generalizing files references with
  | nil =>
      simp only [storeThreads, Except.ok.injEq, Prod.mk.injEq] at stored
      obtain ⟨rfl, rfl⟩ := stored
      exact ⟨extends_refl files, .nil⟩
  | cons thread rest ih =>
      simp only [storeThreads, bind_ok, found_ok, pure_ok, Prod.mk.injEq, Prod.exists] at stored
      obtain ⟨content, named, reference, mid, first, others, after, remaining, rfl, rfl⟩ := stored
      obtain ⟨begins, head⟩ := store_descriptor_ok lib files mid contents thread content reference named first
      obtain ⟨continues, tail⟩ := ih mid others remaining
      exact ⟨extends_trans _ _ _ begins continues, .cons (stored_extends lib mid after contents continues _ _ head) tail⟩

theorem overlays_other (threads : List ThreadBundle) (overlays : Std.ExtTreeMap String LocalThreadOverlayV4) (id : String)
    (absent : id ∉ threads.map ThreadBundle.threadId) : (overlaysOf threads overlays)[id]? = overlays[id]? := by
  induction threads generalizing overlays with
  | nil => rfl
  | cons thread rest ih =>
      rw [List.map_cons, List.mem_cons, not_or] at absent
      obtain ⟨other, later⟩ := absent
      rw [overlaysOf, ih _ later, Keyed.lookup_insert, if_neg other]

theorem overlays_of (threads : List ThreadBundle) (overlays : Std.ExtTreeMap String LocalThreadOverlayV4)
    (distinct : (threads.map ThreadBundle.threadId).Nodup) (thread : ThreadBundle) (member : thread ∈ threads) :
    (overlaysOf threads overlays)[thread.threadId]? = some (overlayOf thread) := by
  induction threads generalizing overlays with
  | nil => cases member
  | cons head rest ih =>
      obtain ⟨fresh, others⟩ := List.nodup_cons.mp distinct
      rcases List.mem_cons.mp member with rfl | later
      · rw [overlaysOf, overlays_other rest _ _ fresh, Keyed.lookup_insert, if_pos rfl]
      · exact ih _ others later

theorem overlays_plain (threads : List ThreadBundle) (overlays : Std.ExtTreeMap String LocalThreadOverlayV4)
    (plain : ∀ (id : String) (thread : LocalThreadOverlayV4), overlays[id]? = some thread → thread.localFields = ∅) :
    ∀ (id : String) (thread : LocalThreadOverlayV4), (overlaysOf threads overlays)[id]? = some thread → thread.localFields = ∅ := by
  induction threads generalizing overlays with
  | nil => exact plain
  | cons head rest ih =>
      refine ih _ fun id thread held => ?_
      rw [Keyed.lookup_insert] at held
      split at held
      · rw [← Option.some.inj held]
        rfl
      · exact plain id thread held

-- What a successful write leaves behind.
structure Written (later : Files) (snapshot : LocalSnapshot) (contents : Contents) (root : SnapshotRootV4) : Prop where
  valid : root.validate = .ok ()
  created : root.snapshotId = snapshot.snapshotId ∧ root.createdAt = snapshot.createdAt ∧ root.warningCount = snapshot.warningCount
  overlay : readObject lib later .snapshotOverlay root.overlaySha256 =
    .ok (canonicalJson lib (SnapshotOverlayV4.new (overlaysOf snapshot.threads ∅)).toValue)
  sorted : root.threads.map ThreadRefV4.threadId = (snapshot.threads.map ThreadBundle.threadId).insertionSort (· ≤ ·)
  threads : ∃ threads, threads.Perm snapshot.threads ∧ List.Forall₂ (StoredAs lib later contents) threads root.threads

theorem stored_ids (files : Files) (contents : Contents) (threads : List ThreadBundle) (references : List ThreadRefV4)
    (stored : List.Forall₂ (StoredAs lib files contents) threads references) :
    references.map ThreadRefV4.threadId = threads.map ThreadBundle.threadId := by
  induction stored with
  | nil => rfl
  | cons head _ ih =>
      obtain ⟨_, _, _, _, _, same, _⟩ := head
      rw [List.map_cons, List.map_cons, same, ih]

theorem write_ok (files later : Files) (snapshot : LocalSnapshot) (contents : Contents) (manifest : Bytes)
    (written : writeV4Snapshot lib files snapshot contents = .ok (manifest, later)) :
    ∃ root, manifest = canonicalJson lib root.toValue ∧ Written lib later snapshot contents root := by
  simp only [writeV4Snapshot, buildV4SnapshotRoot, bind_ok, pure_ok, Prod.mk.injEq, Prod.exists] at written
  obtain ⟨root, _, ⟨references, mid, threads, object, after, overlay, _, valid, rfl, rfl⟩, rfl, rfl⟩ := written
  obtain ⟨_, stored⟩ := store_threads_ok lib contents snapshot.threads files mid references threads
  simp only [storeOverlay, bind_ok] at overlay
  obtain ⟨_, _, overlay⟩ := overlay
  obtain ⟨_, extended, read⟩ := store_json_ok lib mid after .snapshotOverlay _ object overlay
  have kept : List.Forall₂ (StoredAs lib after contents) snapshot.threads references :=
    stored.imp fun thread reference held => stored_extends lib mid after contents extended thread reference held
  refine ⟨_, rfl, valid, ⟨rfl, rfl, rfl⟩, read, ?_, ?_⟩
  · rw [List.map_insertionSort _ (fun a b : String => a ≤ b) ThreadRefV4.threadId references fun _ _ _ _ => Iff.rfl,
      stored_ids lib after contents _ _ kept]
  · obtain ⟨threads, matched, moved⟩ :=
      List.perm_comp_forall₂ (List.perm_insertionSort (fun a b : ThreadRefV4 => a.threadId ≤ b.threadId)
      references) kept.flip
    exact ⟨threads, moved, matched.flip⟩

theorem valid_refs_distinct (references : List ThreadRefV4) (ids : List String)
    (valid : validateThreadRefsV4 references ids = .ok ()) :
    (references.map ThreadRefV4.threadId).Nodup ∧ ∀ id ∈ references.map ThreadRefV4.threadId, id ∉ ids := by
  induction references generalizing ids with
  | nil => exact ⟨List.nodup_nil, List.forall_mem_nil _⟩
  | cons reference rest ih =>
      simp only [validateThreadRefsV4, bind_ok, ensure_ok] at valid
      obtain ⟨_, _, _, _, _, fresh, valid⟩ := valid
      obtain ⟨distinct, apart⟩ := ih _ valid
      refine ⟨List.nodup_cons.mpr ⟨fun member => apart _ member List.mem_cons_self, distinct⟩, fun id member => ?_⟩
      rcases List.mem_cons.mp member with rfl | later
      · exact fresh
      · exact fun seen => apart id later (List.mem_cons_of_mem _ seen)

section Load

variable {lib serde reread} (reads : ReadsBack lib serde reread) (files : Files) (overlay : SnapshotOverlayV4) (contents : Contents)

include reads

theorem load_threads_cons (thread : ThreadBundle) (formed : RowsFormed thread.relatedRecords.tables) (reference : ThreadRefV4)
    (stored : StoredAs lib files contents thread reference) (rest : List ThreadRefV4) (start back : Contents)
    (loaded : List ThreadBundle) :
    loadThreads lib serde files overlay (reference :: rest) start = .ok (loaded, back) ↔
      ∃ content after others, LoadedAs reread overlay contents thread after ∧ contents[thread.threadId]? = some content ∧
        Shallow thread ∧
        (start[thread.threadId]?.all fun previous => previous.logicalSha256 = content.logicalSha256) = true ∧
        loadThreads lib serde files overlay rest (start.insert thread.threadId content) = .ok (others, back) ∧
          loaded = after :: others := by
  obtain ⟨content, descriptor, named, built, valid, same, read⟩ := stored
  have load :=
    fun found => load_stored_iff lib serde reread reads files thread content formed descriptor found reference built valid same read
  obtain ⟨_, rollout, _, _⟩ := from_bundle_records thread content descriptor built
  have kept : (descriptor.readBack reread).rollout = content := rollout
  simp only [loadThreads, bind_ok, ensure_ok, pure_ok, Prod.mk.injEq, Prod.exists, load, same]
  constructor
  · rintro ⟨_, ⟨shallow, rfl⟩, _, agree, others, after, run, rfl, rfl⟩
    rw [kept] at agree run
    exact ⟨content, _, others, ⟨content, descriptor, named, built, rfl⟩, named, shallow, agree, run, rfl⟩
  · rintro ⟨found, after, others, ⟨other, twin, second, again, rfl⟩, known, shallow, agree, run, rfl⟩
    rw [named, Option.some.injEq] at known second
    subst known second
    rw [built, Except.ok.injEq] at again
    subst again
    exact ⟨_, ⟨shallow, rfl⟩, (), by rw [kept]; exact agree, others, back, by rw [kept]; exact run, rfl, rfl⟩

theorem load_threads_sound (threads : List ThreadBundle) (references : List ThreadRefV4)
    (formed : ∀ thread ∈ threads, RowsFormed thread.relatedRecords.tables)
    (stored : List.Forall₂ (StoredAs lib files contents) threads references) (start back : Contents) (loaded : List ThreadBundle)
    (run : loadThreads lib serde files overlay references start = .ok (loaded, back)) :
    List.Forall₂ (LoadedAs reread overlay contents) threads loaded ∧ ∀ thread ∈ threads, Shallow thread := by
  induction stored generalizing start loaded with
  | nil =>
      simp only [loadThreads, Except.ok.injEq, Prod.mk.injEq] at run
      rw [← run.1]
      exact ⟨.nil, List.forall_mem_nil _⟩
  | @cons thread reference threads references head _ ih =>
      obtain ⟨content, after, others, shape, _, shallow, _, later, rfl⟩ :=
        (load_threads_cons reads files overlay contents thread (formed thread List.mem_cons_self) reference head references start back
          loaded).mp run
      obtain ⟨tail, rest⟩ := ih (fun other member => formed other (List.mem_cons_of_mem _ member)) _ _ later
      exact ⟨.cons shape tail, List.forall_mem_cons.mpr ⟨shallow, rest⟩⟩

theorem load_threads_contents (threads : List ThreadBundle) (references : List ThreadRefV4)
    (formed : ∀ thread ∈ threads, RowsFormed thread.relatedRecords.tables)
    (stored : List.Forall₂ (StoredAs lib files contents) threads references) (start back : Contents) (loaded : List ThreadBundle)
    (distinct : (threads.map ThreadBundle.threadId).Nodup)
    (run : loadThreads lib serde files overlay references start = .ok (loaded, back)) :
    (∀ thread ∈ threads, back[thread.threadId]? = contents[thread.threadId]?) ∧
      ∀ id : String, id ∉ threads.map ThreadBundle.threadId → back[id]? = start[id]? := by
  induction stored generalizing start loaded with
  | nil =>
      simp only [loadThreads, Except.ok.injEq, Prod.mk.injEq] at run
      exact ⟨List.forall_mem_nil _, fun id _ => by rw [run.2]⟩
  | @cons thread reference threads references head _ ih =>
      obtain ⟨content, after, others, _, named, _, _, later, rfl⟩ :=
        (load_threads_cons reads files overlay contents thread (formed thread List.mem_cons_self) reference head references start back
          loaded).mp run
      obtain ⟨fresh, rest⟩ := List.nodup_cons.mp distinct
      obtain ⟨inside, outside⟩ := ih (fun other member => formed other (List.mem_cons_of_mem _ member)) _ _ rest later
      refine ⟨List.forall_mem_cons.mpr ⟨?_, inside⟩, fun id absent => ?_⟩
      · rw [outside _ fresh, Keyed.lookup_insert, if_pos rfl, named]
      · rw [List.map_cons, List.mem_cons, not_or] at absent
        rw [outside id absent.2, Keyed.lookup_insert, if_neg absent.1]

theorem load_threads_total (threads : List ThreadBundle) (references : List ThreadRefV4)
    (formed : ∀ thread ∈ threads, RowsFormed thread.relatedRecords.tables)
    (stored : List.Forall₂ (StoredAs lib files contents) threads references) (start : Contents)
    (distinct : (threads.map ThreadBundle.threadId).Nodup) (fresh : ∀ thread ∈ threads, start[thread.threadId]? = none)
    (shallow : ∀ thread ∈ threads, Shallow thread) :
    ∃ loaded back, loadThreads lib serde files overlay references start = .ok (loaded, back) := by
  induction stored generalizing start with
  | nil => exact ⟨[], start, rfl⟩
  | @cons thread reference threads references head _ ih =>
      have whole := head
      obtain ⟨content, descriptor, named, built, _⟩ := whole
      obtain ⟨apart, rest⟩ := List.nodup_cons.mp distinct
      obtain ⟨others, back, later⟩ := ih (fun other member => formed other (List.mem_cons_of_mem _ member))
        (start.insert thread.threadId content) rest (fun other member => by
          have differ : other.threadId ≠ thread.threadId := fun same => apart (same ▸ List.mem_map_of_mem member)
          rw [Keyed.lookup_insert, if_neg differ]
          exact fresh other (List.mem_cons_of_mem _ member))
        (fun other member => shallow other (List.mem_cons_of_mem _ member))
      refine ⟨_, back, (load_threads_cons reads files overlay contents thread (formed thread List.mem_cons_self) reference head
        references start back _).mpr ⟨content, _, others, ⟨content, descriptor, named, built, rfl⟩, named,
          shallow thread List.mem_cons_self, ?_, later, rfl⟩⟩
      rw [fresh thread List.mem_cons_self]
      rfl

end Load

-- What a snapshot shares with the one it was stored from.
structure SameSnapshot (contents back : Contents) (snapshot loaded : LocalSnapshot) : Prop where
  ids : loaded.threads.map ThreadBundle.threadId = (snapshot.threads.map ThreadBundle.threadId).insertionSort (· ≤ ·)
  threads : ∀ thread ∈ snapshot.threads, back[thread.threadId]? = contents[thread.threadId]? ∧
    ∃ after ∈ loaded.threads, after.threadId = thread.threadId ∧ after.modelProvider = thread.modelProvider ∧
      after.workspace.sourcePath = thread.workspace.sourcePath.or thread.workspace.logicalId ∧
      semanticThreadHash lib after = semanticThreadHash lib thread

structure SnapshotKept (manifest : Bytes) (contents : Contents) (snapshot : LocalSnapshot) : Prop where
  fits : fileLength manifest ≤ maxRootBytes
  shallow : ∀ thread ∈ snapshot.threads, Shallow thread
  threads : ∀ thread ∈ snapshot.threads, ∀ content, contents[thread.threadId]? = some content → ThreadKept reread thread content

-- SHA-256 tells the text of a stored thread from the text of the thread.
def HashesApart (snapshot loaded : LocalSnapshot) : Prop :=
  ∀ thread ∈ snapshot.threads, ∀ after ∈ loaded.threads, semanticThreadHash lib after = semanticThreadHash lib thread →
    toVec lib (remoteThreadView after).toValue = toVec lib (remoteThreadView thread).toValue

section RoundTrip

variable {lib serde reread} (reads : ReadsBack lib serde reread)

theorem loaded_fields (overlay : SnapshotOverlayV4) (contents : Contents) (thread after : ThreadBundle)
    (known : overlay.threads[thread.threadId]? = some (overlayOf thread)) (loaded : LoadedAs reread overlay contents thread after) :
    after.threadId = thread.threadId ∧ after.modelProvider = thread.modelProvider ∧
      after.workspace.sourcePath = thread.workspace.sourcePath.or thread.workspace.logicalId := by
  obtain ⟨content, descriptor, _, built, rfl⟩ := loaded
  obtain ⟨id, _, workspace, _⟩ := from_bundle_records thread content descriptor built
  simp only [SemanticThreadDescriptorV4.intoBundle, SemanticThreadDescriptorV4.readBack, known, workspace, id, overlayOf,
    Option.bind_some, and_self]

theorem loaded_formed (finite : ∀ bits, isFinite bits = true → isFinite (reread bits) = true) (overlay : SnapshotOverlayV4)
    (contents : Contents) (thread after : ThreadBundle) (formed : RowsFormed thread.relatedRecords.tables)
    (loaded : LoadedAs reread overlay contents thread after) : RowsFormed after.relatedRecords.tables := by
  obtain ⟨content, descriptor, _, built, rfl⟩ := loaded
  obtain ⟨_, _, _, records⟩ := from_bundle_records thread content descriptor built
  exact read_back_formed reread finite descriptor (records ▸ project_rows_formed _ formed)

theorem loaded_view (overlay : SnapshotOverlayV4) (contents : Contents) (thread after : ThreadBundle)
    (loaded : LoadedAs reread overlay contents thread after) :
    remoteThreadView after = remoteThreadView thread ↔
      ∀ content, contents[thread.threadId]? = some content → ThreadKept reread thread content := by
  obtain ⟨content, descriptor, named, built, rfl⟩ := loaded
  rw [loaded_view_iff thread content descriptor _ built]
  constructor
  · intro kept other held
    rw [named, Option.some.injEq] at held
    exact held ▸ kept
  · exact fun kept => kept content named

include reads in
theorem load_written_iff (later : Files) (snapshot loaded : LocalSnapshot) (contents back : Contents) (root : SnapshotRootV4)
    (written : Written lib later snapshot contents root) :
    loadV4Snapshot lib serde later (canonicalJson lib root.toValue) = .ok (loaded, back) ↔
      fileLength (canonicalJson lib root.toValue) ≤ maxRootBytes ∧
        ∃ threads, loadThreads lib serde later (.new (overlaysOf snapshot.threads ∅)) root.threads ∅ = .ok (threads, back) ∧
          loaded = { schemaVersion := localSnapshotSchemaVersion, snapshotId := root.snapshotId, createdAt := root.createdAt,
                     threads := threads, warningCount := root.warningCount } := by
  have plain := overlays_plain snapshot.threads ∅ fun id thread held => by
    rw [Std.ExtTreeMap.getElem?_empty] at held
    cases held
  have overlay : loadOverlay lib serde later root.overlaySha256 = .ok (.new (overlaysOf snapshot.threads ∅)) := by
    simp only [loadOverlay, bind_ok, pure_ok, read_json_ok]
    exact ⟨_, ⟨_, written.overlay, reads.overlay _ plain⟩, (), (ensure_ok _ _ _).mpr ⟨rfl, rfl⟩, rfl⟩
  simp only [loadV4Snapshot, readBoundedV4, bind_ok, ensure_ok, pure_ok, Prod.mk.injEq, Prod.exists, reads.snapshotRoot,
    Except.ok.injEq]
  constructor
  · rintro ⟨_, ⟨_, fits, rfl⟩, _, _, _, opened, threads, after, run, rfl, rfl⟩
    rw [overlay, Except.ok.injEq] at opened
    subst opened
    exact ⟨fits, threads, run, rfl⟩
  · rintro ⟨fits, threads, run, rfl⟩
    exact ⟨root, ⟨(), fits, rfl⟩, (), written.valid, _, overlay, threads, back, run, rfl, rfl⟩

-- The threads of a written snapshot in the order of its root, under one id each.
theorem written_threads (later : Files) (snapshot : LocalSnapshot) (contents : Contents) (root : SnapshotRootV4)
    (written : Written lib later snapshot contents root) :
    ∃ threads, threads.Perm snapshot.threads ∧ (threads.map ThreadBundle.threadId).Nodup ∧
      List.Forall₂ (StoredAs lib later contents) threads root.threads := by
  obtain ⟨threads, moved, stored⟩ := written.threads
  refine ⟨threads, moved, ?_, stored⟩
  have valid := written.valid
  simp only [SnapshotRootV4.validate, bind_ok] at valid
  obtain ⟨_, _, valid⟩ := valid
  rw [← stored_ids lib later contents _ _ stored]
  exact (valid_refs_distinct root.threads [] valid).1

theorem loaded_ids (overlay : SnapshotOverlayV4) (contents : Contents) (threads loaded : List ThreadBundle)
    (matched : List.Forall₂ (LoadedAs reread overlay contents) threads loaded) :
    loaded.map ThreadBundle.threadId = threads.map ThreadBundle.threadId := by
  induction matched with
  | nil => rfl
  | @cons thread after _ _ head _ ih =>
      obtain ⟨content, descriptor, _, built, rfl⟩ := head
      rw [List.map_cons, List.map_cons, ih]
      exact congrArg (· :: _) (from_bundle_records thread content descriptor built).1

variable (reread) in
-- What a load makes of a written snapshot, thread by thread.
structure Reloaded (snapshot loaded : LocalSnapshot) (contents back : Contents) : Prop where
  ids : loaded.threads.map ThreadBundle.threadId = (snapshot.threads.map ThreadBundle.threadId).insertionSort (· ≤ ·)
  threads : ∀ thread ∈ snapshot.threads, back[thread.threadId]? = contents[thread.threadId]? ∧
    ∃ after ∈ loaded.threads, LoadedAs reread (.new (overlaysOf snapshot.threads ∅)) contents thread after

include reads in
theorem load_written_total (later : Files) (snapshot : LocalSnapshot) (contents : Contents) (root : SnapshotRootV4)
    (formed : ∀ thread ∈ snapshot.threads, RowsFormed thread.relatedRecords.tables)
    (written : Written lib later snapshot contents root) (fits : fileLength (canonicalJson lib root.toValue) ≤ maxRootBytes)
    (shallow : ∀ thread ∈ snapshot.threads, Shallow thread) :
    ∃ loaded back, loadV4Snapshot lib serde later (canonicalJson lib root.toValue) = .ok (loaded, back) ∧
      Reloaded reread snapshot loaded contents back := by
  obtain ⟨threads, moved, distinct, stored⟩ := written_threads later snapshot contents root written
  have inside : ∀ thread ∈ threads, thread ∈ snapshot.threads := fun thread member => moved.mem_iff.mp member
  have rows : ∀ thread ∈ threads, RowsFormed thread.relatedRecords.tables := fun thread member => formed thread (inside thread member)
  obtain ⟨loaded, back, run⟩ :=
    load_threads_total reads later (.new (overlaysOf snapshot.threads ∅)) contents threads root.threads rows
    stored ∅ distinct (fun _ _ => Std.ExtTreeMap.getElem?_empty) fun thread member => shallow thread (inside thread member)
  obtain ⟨matched, _⟩ := load_threads_sound reads later _ contents threads root.threads rows stored ∅ back loaded run
  obtain ⟨refs, _⟩ := load_threads_contents reads later _ contents threads root.threads rows stored ∅ back loaded distinct run
  refine ⟨_, back, (load_written_iff reads later snapshot _ contents back root written).mpr ⟨fits, loaded, run, rfl⟩, ?_, ?_⟩
  · rw [← written.sorted, stored_ids lib later contents _ _ stored, ← loaded_ids _ contents threads loaded matched]
  · intro thread member
    have here := moved.mem_iff.mpr member
    exact ⟨refs thread here, Keyed.matched_left _ _ _ matched thread here⟩

theorem written_distinct (later : Files) (snapshot : LocalSnapshot) (contents : Contents) (root : SnapshotRootV4)
    (written : Written lib later snapshot contents root) : (snapshot.threads.map ThreadBundle.threadId).Nodup := by
  obtain ⟨threads, moved, distinct, _⟩ := written_threads later snapshot contents root written
  exact (moved.map _).nodup_iff.mp distinct

include reads in
theorem kept_round_trip (later : Files) (snapshot : LocalSnapshot) (contents : Contents) (root : SnapshotRootV4)
    (formed : ∀ thread ∈ snapshot.threads, RowsFormed thread.relatedRecords.tables)
    (written : Written lib later snapshot contents root)
    (kept : SnapshotKept reread (canonicalJson lib root.toValue) contents snapshot) :
    ∃ loaded back, loadV4Snapshot lib serde later (canonicalJson lib root.toValue) = .ok (loaded, back) ∧
      SameSnapshot lib contents back snapshot loaded := by
  obtain ⟨loaded, back, run, reloaded⟩ := load_written_total reads later snapshot contents root formed written kept.fits kept.shallow
  refine ⟨loaded, back, run, reloaded.ids, fun thread member => ?_⟩
  obtain ⟨refs, after, found, shape⟩ := reloaded.threads thread member
  have known := overlays_of snapshot.threads ∅ (written_distinct later snapshot contents root written) thread member
  obtain ⟨id, provider, path⟩ := loaded_fields _ contents thread after known shape
  have view := (loaded_view _ contents thread after shape).mpr (kept.threads thread member)
  exact ⟨refs, after, found, id, provider, path, by rw [semanticThreadHash, semanticThreadHash, view]⟩

include reads in
theorem round_trip_kept (floats : PrintsFloats lib) (later : Files) (snapshot loaded : LocalSnapshot) (contents back : Contents)
    (root : SnapshotRootV4) (formed : ∀ thread ∈ snapshot.threads, RowsFormed thread.relatedRecords.tables)
    (written : Written lib later snapshot contents root)
    (run : loadV4Snapshot lib serde later (canonicalJson lib root.toValue) = .ok (loaded, back))
    (apart : HashesApart lib snapshot loaded) (same : SameSnapshot lib contents back snapshot loaded) :
    SnapshotKept reread (canonicalJson lib root.toValue) contents snapshot := by
  obtain ⟨threads, moved, distinct, stored⟩ := written_threads later snapshot contents root written
  have rows : ∀ thread ∈ threads, RowsFormed thread.relatedRecords.tables :=
    fun thread member => formed thread (moved.mem_iff.mp member)
  obtain ⟨fits, list, threadsRun, rfl⟩ := (load_written_iff reads later snapshot loaded contents back root written).mp run
  obtain ⟨matched, shallow⟩ := load_threads_sound reads later _ contents threads root.threads rows stored ∅ back list threadsRun
  refine ⟨fits, fun thread member => shallow thread (moved.mem_iff.mpr member), fun thread member => ?_⟩
  obtain ⟨_, after, found, id, _, _, hash⟩ := same.threads thread member
  obtain ⟨other, here, shape⟩ := Keyed.matched_right _ _ _ matched after found
  have known := overlays_of snapshot.threads ∅ (written_distinct later snapshot contents root written) other (moved.mem_iff.mp here)
  have twin : other = thread := by
    have ids := (loaded_fields _ contents other after known shape).1.symm.trans id
    exact List.inj_on_of_nodup_map distinct here (moved.mem_iff.mpr member) ids
  subst twin
  refine (loaded_view _ contents other after shape).mp ?_
  refine (semantic_text_iff lib floats after other ?_ (formed other member)).mp (apart other member after found hash)
  exact loaded_formed reads.finite _ contents other after (formed other member) shape

end RoundTrip

theorem store_load_iff (floats : PrintsFloats lib) (reads : ReadsBack lib serde reread) (files later : Files)
    (snapshot : LocalSnapshot) (contents : Contents) (manifest : Bytes)
    (formed : ∀ thread ∈ snapshot.threads, RowsFormed thread.relatedRecords.tables)
    (written : writeV4Snapshot lib files snapshot contents = .ok (manifest, later)) :
    (SnapshotKept reread manifest contents snapshot → ∃ loaded back,
      loadV4Snapshot lib serde later manifest = .ok (loaded, back) ∧ SameSnapshot lib contents back snapshot loaded) ∧
    ∀ loaded back, loadV4Snapshot lib serde later manifest = .ok (loaded, back) → HashesApart lib snapshot loaded →
      SameSnapshot lib contents back snapshot loaded → SnapshotKept reread manifest contents snapshot := by
  obtain ⟨root, rfl, left⟩ := write_ok lib files later snapshot contents manifest written
  exact ⟨kept_round_trip reads later snapshot contents root formed left,
    fun loaded back run apart same =>
      round_trip_kept reads floats later snapshot loaded contents back root formed left run apart same⟩

section Sample

-- One thread with one row in the given table.
def blankDigest : String := "sha256:" ++ "0000000000000000000000000000000000000000000000000000000000000000"

def storedThread (table : String) : ThreadBundle :=
  { schemaVersion := 1
    threadId := "t"
    title := ""
    archived := false
    createdAtMs := none
    updatedAtMs := none
    modelProvider := some "openai"
    workspace := ⟨some "w", none⟩
    rollout := ⟨blankDigest, 0, "text", none, none, some (.chunked blankDigest)⟩
    relatedRecords := ⟨none, (∅ : Std.ExtTreeMap String (List Value)).insert table [.object [("id", .string "t")]]⟩
    attachments := [] }

def storedSnapshot (table : String) : LocalSnapshot := ⟨1, "s", "now", [storedThread table], 0⟩

def storedContent : ContentRefV4 := ⟨blankDigest, 0, .chunked blankDigest, "text", none⟩

def storedContents : Contents := (∅ : Contents).insert "t" storedContent

def storedDescriptor (table : String) : SemanticThreadDescriptorV4 :=
  { schemaVersion := 4
    normalizationSchemaVersion := 1
    threadId := "t"
    title := ""
    archived := false
    createdAtMs := none
    updatedAtMs := none
    semanticWorkspace := ⟨some "w", some "w"⟩
    rollout := storedContent
    relatedRecords := projectRelatedRecordsV4 (storedThread table).relatedRecords
    attachments := [] }

theorem stored_named : storedContents["t"]? = some storedContent := by
  rw [storedContents, Keyed.lookup_insert, if_pos rfl]

theorem stored_built (table : String) :
    SemanticThreadDescriptorV4.fromBundle (storedThread table) storedContent = .ok (storedDescriptor table) :=
  ensured _ _ _ ⟨rfl, rfl⟩

theorem stored_valid (table : String) : (storedDescriptor table).validate = .ok () := by
  have named : validSha256 blankDigest = true := by decide +kernel
  have timeline : (storedDescriptor table).relatedRecords.contains "thread_timeline_ledger" = false := by
    rw [← Bool.not_eq_true, Std.ExtTreeMap.contains_iff_mem, Std.ExtTreeMap.mem_iff_isSome_getElem?, storedDescriptor,
      projected_table, if_pos (by rfl)]
    exact Bool.false_ne_true
  simp only [SemanticThreadDescriptorV4.validate, bind_ok, ensure_ok]
  refine ⟨(), ⟨rfl, rfl⟩, (), (by decide : isBlank "t" = false), (), (by decide : isBlank "text" = false), (), ?_, timeline⟩
  simp only [SemanticThreadDescriptorV4.contents, storedDescriptor, storedContent, validateContentRefsV4, validateContentRefV4,
    validateSha256V4, bind_ok, ensure_ok]
  exact ⟨(), ⟨(), named, (), by decide, named⟩, trivial⟩

def storedRoot (table : String) : SnapshotRootV4 :=
  { schemaVersion := 4
    normalizationSchemaVersion := 1
    snapshotId := "s"
    createdAt := "now"
    threads := [⟨"t", digestBytes sampleLib (canonicalJson sampleLib (storedDescriptor table).toValue)⟩]
    overlaySha256 :=
      digestBytes sampleLib (canonicalJson sampleLib (SnapshotOverlayV4.new (overlaysOf [storedThread table] ∅)).toValue)
    warningCount := 0 }

theorem stored_root_valid (table : String) : (storedRoot table).validate = .ok () := by
  simp only [SnapshotRootV4.validate, storedRoot, validateThreadRefsV4, validateSha256V4, bind_ok, ensure_ok]
  exact ⟨(), by decide, (), by decide, (), digest_bytes_valid _ _, (), List.not_mem_nil, trivial⟩

theorem stored_root_fits (table : String) : fileLength (canonicalJson sampleLib (storedRoot table).toValue) ≤ maxRootBytes := by
  have overlay :=
    write_digest_length sampleLib (canonicalJson sampleLib (SnapshotOverlayV4.new (overlaysOf [storedThread table] ∅)).toValue)
  have descriptor := write_digest_length sampleLib (canonicalJson sampleLib (storedDescriptor table).toValue)
  have four : (Nat.toDigits 10 4).length = 1 := by decide
  have one : (Nat.toDigits 10 1).length = 1 := by decide
  have narrow : width sampleLib (storedRoot table).toValue ≤ 2000 := by
    simp [four, one, SnapshotRootV4.toValue, width, widthFields, widthElements, storedRoot, ThreadRefV4.toValue, Value.nat,
      writeNumber, writeString, escapeChar] at overlay descriptor ⊢
    omega
  have bound := canonical_json_length sampleLib (storedRoot table).toValue
  rw [UInt64.le_iff_toNat_le, fileLength, UInt64.toNat_ofNat']
  refine (Nat.mod_le _ _).trans (le_trans (bound.trans (Nat.mul_le_mul_left 4 narrow)) (by decide))

def overlayFile (table : String) : Bytes :=
  canonicalJson sampleLib (SnapshotOverlayV4.new (overlaysOf [storedThread table] ∅)).toValue

def descriptorFile (table : String) : Bytes := canonicalJson sampleLib (storedDescriptor table).toValue

def descriptorStore (table : String) : Files :=
  (∅ : Files).insert (.thread, digestBytes sampleLib (descriptorFile table)) (descriptorFile table)

def storedFiles (table : String) : Files :=
  (descriptorStore table).insert (.snapshotOverlay, digestBytes sampleLib (overlayFile table)) (overlayFile table)

theorem stored_write (table : String) (descriptor : fileLength (descriptorFile table) ≤ 16 * 1024 * 1024)
    (overlay : fileLength (overlayFile table) ≤ 16 * 1024 * 1024) :
    writeV4Snapshot sampleLib ∅ (storedSnapshot table) storedContents =
      .ok (canonicalJson sampleLib (storedRoot table).toValue, storedFiles table) := by
  have first : storeJson sampleLib ∅ .thread (storedDescriptor table).toValue =
      .ok (⟨.thread, digestBytes sampleLib (descriptorFile table), fileLength (descriptorFile table)⟩, descriptorStore table) :=
    store_json_fresh sampleLib ∅ .thread (storedDescriptor table).toValue descriptor Std.ExtTreeMap.getElem?_empty
  have second := store_json_fresh sampleLib (descriptorStore table) .snapshotOverlay _ overlay (by
    rw [descriptorStore, Keyed.lookup_insert, if_neg (by simp), Std.ExtTreeMap.getElem?_empty])
  have overlaid : storeOverlay sampleLib (descriptorStore table) (.new (overlaysOf [storedThread table] ∅)) =
      .ok (⟨.snapshotOverlay, digestBytes sampleLib (overlayFile table), fileLength (overlayFile table)⟩, storedFiles table) := by
    simp only [storeOverlay, bind_ok, SnapshotOverlayV4.validate, ensure_ok]
    exact ⟨(), ⟨rfl, rfl⟩, second⟩
  have threads : storeThreads sampleLib storedContents [storedThread table] ∅ =
    .ok ((storedRoot table).threads, descriptorStore table) := by
    simp only [storeThreads, storeDescriptor, bind_ok, found_ok, pure_ok, Prod.mk.injEq, Prod.exists]
    exact ⟨storedContent, stored_named, _, _, ⟨_, stored_built table, (), stored_valid table, _, _, first, rfl, rfl⟩, [], _,
      rfl, rfl, rfl⟩
  simp only [writeV4Snapshot, buildV4SnapshotRoot, bind_ok, pure_ok, Prod.mk.injEq, Prod.exists]
  exact ⟨storedRoot table, _, ⟨_, _, threads, _, _, overlaid, (), stored_root_valid table, rfl, rfl⟩, rfl, rfl⟩

theorem stored_formed (table : String) : ∀ thread ∈ (storedSnapshot table).threads, RowsFormed thread.relatedRecords.tables := by
  intro thread member
  rw [storedSnapshot, List.mem_singleton] at member
  subst member
  intro name rows held row inside
  rw [storedThread, Keyed.lookup_insert] at held
  split at held
  · rw [← Option.some.inj held, List.mem_singleton] at inside
    subst inside
    exact ⟨⟨trivial, trivial⟩, List.pairwise_singleton _ _⟩
  · rw [Std.ExtTreeMap.getElem?_empty] at held
    cases held

theorem stored_shallow (table : String) : ∀ thread ∈ (storedSnapshot table).threads, Shallow thread := by
  intro thread member
  rw [storedSnapshot, List.mem_singleton] at member
  subst member
  intro name rows _ held row inside
  rw [storedThread, Keyed.lookup_insert] at held
  split at held
  · rw [← Option.some.inj held, List.mem_singleton] at inside
    subst inside
    decide
  · rw [Std.ExtTreeMap.getElem?_empty] at held
    cases held

theorem stored_hash : semanticThreadHash sampleLib (((storedDescriptor timelineTable).readBack fun bits => bits).intoBundle
    (SnapshotOverlayV4.new (overlaysOf [storedThread timelineTable] ∅)).threads["t"]?) ≠
      semanticThreadHash sampleLib (storedThread timelineTable) := by
  decide +kernel

end Sample

theorem threads_table_round_trips : ∃ manifest later loaded back,
    writeV4Snapshot sampleLib ∅ (storedSnapshot "threads") storedContents = .ok (manifest, later) ∧
      loadV4Snapshot sampleLib (canonicalDecoders sampleLib) later manifest = .ok (loaded, back) ∧
        SameSnapshot sampleLib storedContents back (storedSnapshot "threads") loaded := by
  have written := stored_write "threads" (by decide +kernel) (by decide +kernel)
  have iff :=
    store_load_iff sampleLib (canonicalDecoders sampleLib) _ sample_floats (canonical_reads_back sampleLib sample_floats) ∅ _
    (storedSnapshot "threads") storedContents _ (stored_formed "threads") written
  have kept : SnapshotKept (fun bits => bits) (canonicalJson sampleLib (storedRoot "threads").toValue) storedContents
      (storedSnapshot "threads") := by
    refine ⟨stored_root_fits "threads", stored_shallow "threads", fun thread member content named => ?_⟩
    rw [storedSnapshot, List.mem_singleton] at member
    subst member
    rw [storedThread, stored_named, Option.some.injEq] at named
    subst named
    refine ⟨rfl, rfl, rfl, ?_, fun table rows held row inside => ?_⟩
    · rw [storedThread, Keyed.lookup_insert, if_neg (by decide +kernel), Std.ExtTreeMap.getElem?_empty]
    · rw [storedThread, Keyed.lookup_insert] at held
      split at held
      · rw [← Option.some.inj held, List.mem_singleton] at inside
        subst inside
        rename_i same
        subst same
        have shown : shownColumns "threads" [("id", .string "t")] = [("id", .string "t")] := rfl
        rw [PlainRow, shown]
        exact fun field one => List.mem_singleton.mp one ▸ trivial
      · rw [Std.ExtTreeMap.getElem?_empty] at held
        cases held
  obtain ⟨loaded, back, run, same⟩ := iff.1 kept
  exact ⟨_, _, loaded, back, written, run, same⟩

-- The timeline table is in the hash and not in the stored descriptor.
theorem timeline_table_is_lost : ∃ manifest later loaded back,
    writeV4Snapshot sampleLib ∅ (storedSnapshot timelineTable) storedContents = .ok (manifest, later) ∧
      loadV4Snapshot sampleLib (canonicalDecoders sampleLib) later manifest = .ok (loaded, back) ∧
        ¬ SameSnapshot sampleLib storedContents back (storedSnapshot timelineTable) loaded := by
  have written := stored_write timelineTable (by decide +kernel) (by decide +kernel)
  obtain ⟨root, text, left⟩ := write_ok sampleLib _ _ _ _ _ written
  have fits := stored_root_fits timelineTable
  rw [text] at fits written
  obtain ⟨loaded, back, run, reloaded⟩ := load_written_total (canonical_reads_back sampleLib sample_floats) _ _ _ root
    (stored_formed timelineTable) left fits (stored_shallow timelineTable)
  refine ⟨_, _, loaded, back, written, run, fun same => ?_⟩
  obtain ⟨_, after, found, _, _, _, hash⟩ := same.threads _ List.mem_cons_self
  obtain ⟨_, other, here, content, descriptor, named, built, shape⟩ := reloaded.threads _ List.mem_cons_self
  obtain ⟨only, listed⟩ : ∃ only, loaded.threads = [only] := by
    have ids := congrArg List.length same.ids
    rw [List.length_map, List.length_insertionSort] at ids
    exact List.length_eq_one_iff.mp ids
  rw [listed, List.mem_singleton] at found here
  rw [found, ← here, shape] at hash
  have known : content = storedContent := Option.some.inj (named.symm.trans stored_named)
  have shaped : descriptor = storedDescriptor timelineTable := by
    rw [known, stored_built] at built
    exact (Except.ok.inj built).symm
  rw [shaped] at hash
  exact stored_hash hash
end SessionSync.Storage
