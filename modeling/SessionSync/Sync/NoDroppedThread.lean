import SessionSync.Sync.Push
import SessionSync.Storage.SnapshotRoundTrip

set_option autoImplicit false

namespace SessionSync.Sync

open SessionSync.Core Checked Storage Tracking

def refIds (references : List ThreadRefV4) : List String := references.map ThreadRefV4.threadId

section Ids

theorem workspace_ids (mapper : String → Option String) (snapshot : LocalSnapshot) :
    threadIds (projectWorkspaceIdentities (canonicalizeSnapshot mapper snapshot)).threads = threadIds snapshot.threads := by
  simp only [threadIds, projectWorkspaceIdentities, canonicalizeSnapshot, List.map_map]
  rfl

theorem staging_ids (input : PushInput) (prepared : PreparedWorkspace) :
    threadIds (stagingWorkspace input prepared).threads = threadIds prepared.threads := by
  simp only [threadIds, stagingWorkspace, canonicalizeSnapshotProviderMetadata, projectWorkspaceIdentities,
    canonicalizeSnapshot, List.map_map]
  rfl

variable (lib : Primitives)

theorem revision_root_ids (files later : Files) (snapshot : LocalSnapshot) (namespaceId : Uuid) (parent : Option String)
    (contents : Contents) (root : RevisionRootV4)
    (composed : snapshotToRevisionRootV4 lib files snapshot namespaceId parent contents = .ok (root, later)) :
    root.parentRevision = parent ∧ ∀ id, id ∈ refIds root.threads ↔ id ∈ threadIds snapshot.threads := by
  simp only [snapshotToRevisionRootV4, bind_ok, pure_ok, Prod.exists, Prod.mk.injEq] at composed
  obtain ⟨references, mid, stored, _, _, _, rfl, rfl⟩ := composed
  obtain ⟨_, matched⟩ := store_threads_ok lib contents snapshot.threads files mid references stored
  refine ⟨rfl, fun id => ?_⟩
  have same := stored_ids lib mid contents _ _ matched
  rw [refIds, ((List.perm_insertionSort _ references).map ThreadRefV4.threadId).mem_iff, same]
  rfl

theorem load_threads_ids (serde : Decoders) (files : Files) (overlay : SnapshotOverlayV4) (references : List ThreadRefV4)
    (start back : Contents) (threads : List ThreadBundle)
    (loaded : loadThreads lib serde files overlay references start = .ok (threads, back)) :
    threadIds threads = refIds references := by
  induction references generalizing start threads with
  | nil =>
      cases loaded
      rfl
  | cons reference rest ih =>
      simp only [loadThreads, bind_ok, pure_ok, Prod.exists, Prod.mk.injEq] at loaded
      obtain ⟨descriptor, read, _, _, others, after, later, rfl, rfl⟩ := loaded
      simp only [loadDescriptor, bind_ok, ensure_ok, pure_ok] at read
      obtain ⟨_, _, _, _, _, _, _, same, rfl⟩ := read
      have rest_ := ih _ others later
      simp only [threadIds, refIds, List.map_cons] at rest_ ⊢
      rw [rest_, ← same]
      rfl

-- A snapshot has the threads of the root that it is read from.
theorem load_ids (serde : Decoders) (files : Files) (manifest : Bytes) (snapshot : LocalSnapshot) (contents : Contents)
    (loaded : loadV4Snapshot lib serde files manifest = .ok (snapshot, contents)) :
    ∃ root, serde.snapshotRoot manifest = .ok root ∧ threadIds snapshot.threads = refIds root.threads := by
  simp only [loadV4Snapshot, readBoundedV4, bind_ok, pure_ok, Prod.exists, Prod.mk.injEq] at loaded
  obtain ⟨root, ⟨_, _, decoded⟩, _, _, overlay, _, threads, back, run, rfl, rfl⟩ := loaded
  exact ⟨root, decoded, load_threads_ids lib serde files overlay root.threads ∅ back threads run⟩

end Ids

section Pushes

variable (codec : LocalCodec) (input : PushInput)

-- serde_json reads back the snapshot roots that were written.
def RootsReadBack : Prop := ∀ root : SnapshotRootV4, codec.serde.snapshotRoot (canonicalJson codec.lib root.toValue) = .ok root

theorem store_snapshot_ids (reads : RootsReadBack codec) (repository after : LocalRepository) (snapshot loaded : LocalSnapshot)
    (contents back : Contents) (stored : storeSnapshot codec repository snapshot contents = .ok after)
    (read : loadSnapshot codec after snapshot.snapshotId = .ok (loaded, back)) (id : String) :
    id ∈ threadIds loaded.threads ↔ id ∈ threadIds snapshot.threads := by
  simp only [storeSnapshot, buildV4SnapshotRoot, bind_ok, pure_ok, Prod.exists, Prod.mk.injEq] at stored
  obtain ⟨root, files, ⟨references, mid, threads, _, _, _, _, _, rfl, rfl⟩, rfl⟩ := stored
  simp only [loadSnapshot, bind_ok, found_ok] at read
  obtain ⟨bytes, named, read⟩ := read
  rw [LocalRepository.writeRoot, Keyed.lookup_insert, if_pos rfl] at named
  obtain ⟨root, decoded, ids⟩ := load_ids codec.lib codec.serde _ bytes loaded back read
  rw [← Option.some.inj named, reads] at decoded
  cases decoded
  obtain ⟨_, matched⟩ := store_threads_ok codec.lib contents snapshot.threads repository.files mid references threads
  have same := stored_ids codec.lib mid contents _ _ matched
  rw [ids, refIds, ((List.perm_insertionSort _ references).map ThreadRefV4.threadId).mem_iff, same]
  rfl

-- The revision of a push from a snapshot has the threads of the snapshot.
theorem push_snapshot_ids (selected : Option String) (repository after : LocalRepository) (root : RevisionRootV4)
    (pushed : pushNamespaceWithSnapshot codec input selected repository = .ok (.commit root, after)) :
    ∃ manifest mid snapshot contents, chooseManifest codec input selected repository = .ok (manifest, mid) ∧
      loadSnapshot codec mid manifest = .ok (snapshot, contents) ∧
        (∀ id, id ∈ refIds root.threads ↔ id ∈ threadIds snapshot.threads) ∧
        ∃ state, input.headState = .ok state ∧ root.parentRevision = state.head := by
  simp only [pushNamespaceWithSnapshot, bind_ok, pure_ok, Prod.exists, Prod.mk.injEq] at pushed
  obtain ⟨_, _, _, _, active, _, _, _, record, _, state, asked, _, _, manifest, mid, chosen, snapshot, contents, loaded, _, _,
    pushed⟩ := pushed
  obtain ⟨composed, files, built, _, _, same, later, _, decision, decided, rfl, rfl⟩ := pushed
  have sent : composed = root := by
    unfold decidePush at decided
    cases same with
    | true => cases decided
    | false =>
        simp only [commitRoot, Bool.false_eq_true, if_false, bind_ok, pure_ok] at decided
        obtain ⟨_, _, _, _, _, _, one⟩ := decided
        cases one
        rfl
  subst sent
  obtain ⟨parent, ids⟩ := revision_root_ids codec.lib mid.files files _ input.namespaceId state.head contents composed built
  refine ⟨manifest, mid, snapshot, contents, chosen, loaded, fun id => ?_, state, asked, parent⟩
  rw [ids, workspace_ids]

section Staged

abbrev Refs := Std.ExtTreeMap String ThreadRefV4

def FiledRefs (refs : Refs) : Prop := Keyed.Filed ThreadRefV4.threadId refs

theorem filed_insert (refs : Refs) (reference : ThreadRefV4) (id : String) (same : reference.threadId = id) (filed : FiledRefs refs) :
    FiledRefs (refs.insert id reference) := by
  intro key value held
  rw [Keyed.lookup_insert] at held
  by_cases here : key = id
  · rw [if_pos here] at held
    rw [← Option.some.inj held, same, here]
  · rw [if_neg here] at held
    exact filed key value held

theorem filed_erase (refs : Refs) (id : String) (filed : FiledRefs refs) : FiledRefs (refs.erase id) := by
  intro key value held
  rw [Keyed.lookup_erase] at held
  by_cases here : key = id
  · rw [if_pos here] at held
    cases held
  · rw [if_neg here] at held
    exact filed key value held

theorem filed_ids (refs : Refs) (filed : FiledRefs refs) (id : String) :
    id ∈ refIds (Keyed.values refs) ↔ (refs[id]?).isSome = true := by
  rw [refIds, Keyed.values_keys ThreadRefV4.threadId refs filed, Std.ExtTreeMap.mem_keys, Std.ExtTreeMap.mem_iff_isSome_getElem?]

theorem collect_refs (references : List ThreadRefV4) (start result : Refs) (filed : FiledRefs start)
    (collected : collectRefs references start = .ok result) :
    FiledRefs result ∧ ∀ id, (start[id]?).isSome = true ∨ id ∈ refIds references → (result[id]?).isSome = true := by
  induction references generalizing start with
  | nil =>
      cases collected
      exact ⟨filed, fun id there => there.resolve_right List.not_mem_nil⟩
  | cons reference rest ih =>
      simp only [collectRefs, bind_ok] at collected
      obtain ⟨_, _, collected⟩ := collected
      obtain ⟨kept, known⟩ := ih _ (filed_insert start reference _ rfl filed) collected
      refine ⟨kept, fun id there => known id ?_⟩
      rw [Keyed.lookup_insert]
      by_cases here : id = reference.threadId
      · rw [if_pos here]
        exact .inl rfl
      · rw [if_neg here]
        rcases there with before | listed
        · exact .inl before
        · exact .inr ((List.mem_cons.mp listed).resolve_left here)

-- A selected deletion is the only way out of the composed references.
theorem compose_refs (plan : ChangePlan) (selected : Refs) (selectedFiled : FiledRefs selected) (ids : List String)
    (result final : Refs) (filed : FiledRefs result) (composed : composeRefs plan selected ids result = .ok final) :
    FiledRefs final ∧ ∀ id, (result[id]?).isSome = true → (final[id]?).isSome = true ∨
      id ∈ ids ∧ ∃ candidate, plan.candidate id = some candidate ∧ candidate.kind = .deleted := by
  induction ids generalizing result with
  | nil =>
      cases composed
      exact ⟨filed, fun id there => .inl there⟩
  | cons own rest ih =>
      simp only [composeRefs, bind_ok, found_ok] at composed
      obtain ⟨candidate, planned, composed⟩ := composed
      have inserted : ∀ reference, selected[own]? = some reference →
        composeRefs plan selected rest (result.insert own reference) = .ok final →
          FiledRefs final ∧ ∀ id, (result[id]?).isSome = true → (final[id]?).isSome = true ∨
            id ∈ own :: rest ∧ ∃ candidate, plan.candidate id = some candidate ∧ candidate.kind = .deleted := by
        intro reference held later
        obtain ⟨kept, known⟩ := ih _ (filed_insert result reference own (selectedFiled own reference held) filed) later
        refine ⟨kept, fun id there => ?_⟩
        rcases known id (by rw [Keyed.lookup_insert]; split <;> first | rfl | exact there) with stays | ⟨member, deleted⟩
        · exact .inl stays
        · exact .inr ⟨List.mem_cons_of_mem _ member, deleted⟩
      cases kind : candidate.kind with
      | deleted =>
          simp only [kind, bind_ok] at composed
          obtain ⟨_, _, later⟩ := composed
          obtain ⟨kept, known⟩ := ih _ (filed_erase result own filed) later
          refine ⟨kept, fun id there => ?_⟩
          by_cases here : id = own
          · exact .inr ⟨here ▸ List.mem_cons_self, candidate, here ▸ planned, kind⟩
          · rcases known id (by rw [Keyed.lookup_erase, if_neg here]; exact there) with stays | ⟨member, deleted⟩
            · exact .inl stays
            · exact .inr ⟨List.mem_cons_of_mem _ member, deleted⟩
      | added =>
          simp only [kind, bind_ok, found_ok] at composed
          obtain ⟨reference, held, later⟩ := composed
          exact inserted reference held later
      | modified =>
          simp only [kind, bind_ok, found_ok] at composed
          obtain ⟨reference, held, later⟩ := composed
          exact inserted reference held later
      | archiveChanged =>
          simp only [kind, bind_ok, found_ok] at composed
          obtain ⟨reference, held, later⟩ := composed
          exact inserted reference held later
      | unchanged =>
          simp only [kind] at composed
          cases composed

theorem folded_filed (references : List ThreadRefV4) (start : Refs) (filed : FiledRefs start) :
    FiledRefs (references.foldl (fun map reference => map.insert reference.threadId reference) start) := by
  induction references generalizing start with
  | nil => exact filed
  | cons reference rest ih => exact ih _ (filed_insert start reference _ rfl filed)

theorem empty_filed : FiledRefs ∅ := by
  intro key value held
  rw [Std.ExtTreeMap.getElem?_empty] at held
  cases held

-- What a staged revision leaves out of the head was deleted in the workspace.
theorem staged_refs_keep (remote references composed : List ThreadRefV4) (plan : ChangePlan) (staged : StagedChangeSet)
    (run : composeStagedThreadRefs remote plan staged references = .ok composed) (id : String) (there : id ∈ refIds remote)
    (missing : id ∉ refIds composed) : ∃ candidate, plan.candidate id = some candidate ∧ candidate.kind = .deleted := by
  simp only [composeStagedThreadRefs, bind_ok, pure_ok] at run
  obtain ⟨_, _, result, collected, final, looped, rfl⟩ := run
  obtain ⟨filed, known⟩ := collect_refs remote ∅ result empty_filed collected
  obtain ⟨kept, stays⟩ := compose_refs plan _ (folded_filed references ∅ empty_filed) _ result final filed looped
  rw [filed_ids final kept] at missing
  exact ((stays id (known id (.inr there))).resolve_left missing).2

theorem deleted_absent (lib : Primitives) (base : Option String) (baseline workspace : List ThreadBundle) (plan : ChangePlan)
    (built : buildChangePlan lib base baseline workspace = .ok plan) (id : String) (candidate : ChangeCandidate)
    (planned : plan.candidate id = some candidate) (deleted : candidate.kind = .deleted) : id ∉ threadIds workspace := by
  have shape := build_change_plan_cases lib base baseline workspace
  rw [built] at shape
  obtain ⟨_, rfl⟩ := shape
  rw [plan_candidate] at planned
  split at planned
  · cases planned
    have absent := (change_kind_deleted lib (version baseline id) (version workspace id) (by
      rw [show (changeKind lib (version baseline id) (version workspace id)).1 = .deleted from deleted]
      decide)).mp deleted
    exact (Keyed.find_none ThreadBundle.threadId workspace id).mp absent
  · cases planned

end Staged

-- A scan of the whole workspace does not find the thread.
def Absent (id : String) : Prop := ∃ prepared, input.scan = .ok prepared ∧ id ∉ threadIds prepared.threads

-- The threads of the revision that is the parent of another one.
def ParentThread (root : RevisionRootV4) (id : String) : Prop :=
  ∃ head served, root.parentRevision = some head ∧ input.served head = .ok served ∧ id ∈ refIds served.1.threads

-- The threads whose deletion the newest snapshot says was staged.
def StagedDeleted (repository : LocalRepository) (push : Push) (id : String) : Prop :=
  push = .latest ∧ ∃ item, latestManifest codec repository = .ok item ∧ id ∈ item.metadata.deletedThreadIds

def DropsNothing (repository : LocalRepository) (push : Push) (root : RevisionRootV4) : Prop :=
  ∀ id, ParentThread input root id → id ∉ refIds root.threads → Absent input id ∨ StagedDeleted codec repository push id

-- The newest snapshot has the threads of the head that a scan would find.
def HeadThread (id : String) : Prop :=
  ∃ state head served, input.headState = .ok state ∧ state.head = some head ∧ input.served head = .ok served ∧
    id ∈ refIds served.1.threads

def LatestComplete (repository : LocalRepository) : Prop :=
  ∀ item snapshot contents, latestManifest codec repository = .ok item →
    loadSnapshot codec repository item.manifest = .ok (snapshot, contents) →
    ∀ id, HeadThread input id → ¬ Absent input id → id ∈ threadIds snapshot.threads ∨ id ∈ item.metadata.deletedThreadIds

theorem namespace_drops_nothing (reads : RootsReadBack codec) (repository after : LocalRepository) (root : RevisionRootV4)
    (pushed : pushNamespaceWithSnapshot codec input none repository = .ok (.commit root, after)) (id : String)
    (missing : id ∉ refIds root.threads) : Absent input id := by
  obtain ⟨manifest, mid, snapshot, contents, chosen, loaded, ids, _⟩ :=
    push_snapshot_ids codec input none repository after root pushed
  simp only [chooseManifest, createLocalSnapshot, bind_ok, pure_ok, Prod.mk.injEq] at chosen
  obtain ⟨prepared, scanned, files, _, _, _, created, stored, _, _, rfl, rfl⟩ := chosen
  refine ⟨prepared, scanned, fun found => missing ((ids id).mpr ?_)⟩
  exact (store_snapshot_ids codec reads _ created _ snapshot _ contents stored loaded id).mpr found

theorem staged_drops_nothing (repository after : LocalRepository) (root : RevisionRootV4) (selected : List String)
    (expected : Option String) (pushed : pushStagedNamespace codec input selected expected repository = .ok (.commit root, after))
    (id : String) (there : ParentThread input root id) (missing : id ∉ refIds root.threads) : Absent input id := by
  simp only [pushStagedNamespace, bind_ok, pure_ok, Prod.exists, Prod.mk.injEq] at pushed
  obtain ⟨_, _, _, _, _, _, _, _, _, _, record, _, _, _, state, _, _, _, _, _, pushed⟩ := pushed
  obtain ⟨base, _, _, _, _, prepared, scanned, _, _, _, _, plan, built, staged, _, _, _, pushed⟩ := pushed
  obtain ⟨references, mid, _, remote, later, asked, threads, composed, _, _, _, _, _, _, _, _, _, same, _⟩ := pushed
  cases same
  obtain ⟨head, served, parent, answered, listed⟩ := there
  have refs : headRefs remote = served.1.threads := by
    simp only [servedHead, show state.head = some head from parent, bind_ok, pure_ok, Prod.mk.injEq] at asked
    obtain ⟨again, first, _, _, rfl, _⟩ := asked
    rw [answered] at first
    cases first
    rfl
  obtain ⟨candidate, planned, deleted⟩ :=
    staged_refs_keep (headRefs remote) references threads plan staged composed id (refs ▸ listed) missing
  refine ⟨prepared, scanned, ?_⟩
  rw [← staging_ids input prepared]
  exact deleted_absent codec.lib _ _ _ plan built id candidate planned deleted

-- Pushing the namespace and pushing what was staged never drop a thread; pushing the
-- newest snapshot drops none exactly when that snapshot is complete.
theorem push_drops_nothing_iff (reads : RootsReadBack codec) (repository after : LocalRepository) (push : Push)
    (root : RevisionRootV4) (pushed : push.run codec input repository = .ok (.commit root, after)) :
    DropsNothing codec input repository push root ↔ (push = .latest → LatestComplete codec input repository) := by
  cases push with
  | namespace_ =>
      refine iff_of_true (fun id _ missing => .inl ?_) (fun same => by cases same)
      exact namespace_drops_nothing codec input reads repository after root pushed id missing
  | staged selected expected =>
      refine iff_of_true (fun id there missing => .inl ?_) (fun same => by cases same)
      exact staged_drops_nothing codec input repository after root selected expected pushed id there missing
  | latest =>
      simp only [Push.run, pushLatestSnapshotNamespace, bind_ok] at pushed
      obtain ⟨item, listed, pushed⟩ := pushed
      obtain ⟨manifest, mid, snapshot, contents, chosen, loaded, ids, state, asked, parent⟩ :=
        push_snapshot_ids codec input (some item.manifest) repository after root pushed
      cases chosen
      constructor
      · intro drops _ other loadedToo back again read id there found
        rw [listed] at again
        cases again
        rw [loaded] at read
        cases read
        obtain ⟨own, head, served, first, named, answered, member⟩ := there
        rw [asked] at first
        cases first
        by_cases kept : id ∈ threadIds snapshot.threads
        · exact .inl kept
        · rcases drops id ⟨head, served, parent.trans named, answered, member⟩
            (fun inside => kept ((ids id).mp inside)) with absent | ⟨_, own, same, deleted⟩
          · exact absurd absent found
          · rw [listed] at same
            cases same
            exact .inr deleted
      · intro complete id there missing
        by_cases absent : Absent input id
        · exact .inl absent
        · obtain ⟨head, served, named, answered, member⟩ := there
          have known : HeadThread input id := ⟨state, head, served, asked, parent ▸ named, answered, member⟩
          rcases complete rfl item snapshot contents listed loaded id known absent with inside | deleted
          · exact absurd ((ids id).mpr inside) missing
          · exact .inr ⟨rfl, item, listed, deleted⟩

end Pushes

namespace Sample

-- A selection snapshot of a deletion alone: it has no thread.
def overlayText : Bytes := canonicalJson sampleLib (SnapshotOverlayV4.new ∅).toValue

def overlayName : String := digestBytes sampleLib overlayText

def selectionId : Uuid := 0x01900000000070008000000000000001

def selectionRoot : SnapshotRootV4 :=
  { schemaVersion := 4, normalizationSchemaVersion := 1, snapshotId := selectionId.text, createdAt := "2026-01-02T00:00:00Z",
    threads := [], overlaySha256 := overlayName, warningCount := 0 }

def selectionMetadata : SnapshotMetadata :=
  { description := "选择推送快照", tags := ["push", "selection"], pinned := false, automatic := true, scope := .selection,
    baseRevisionId := some blankDigest, selectedThreadIds := ["u"], deletedThreadIds := ["u"] }

noncomputable def codec : LocalCodec where
  lib := sampleLib
  serde := canonicalDecoders sampleLib
  metadata bytes :=
    if bytes = canonicalJson sampleLib selectionMetadata.toValue then .ok selectionMetadata else .error "expected value"
  parseUuid text := if text = selectionId.text then some selectionId else none

def repository : LocalRepository where
  files := (∅ : Files).insert (.snapshotOverlay, overlayName) overlayText
  snapshots := (∅ : Std.ExtTreeMap String Bytes).insert selectionId.text (canonicalJson sampleLib selectionRoot.toValue)
  metadata := (∅ : Std.ExtTreeMap String Bytes).insert selectionId.text (canonicalJson sampleLib selectionMetadata.toValue)

def namespaceId : Uuid := 0x01900000000070008000000000000002

-- The head of the server: one thread, which is in the home too.
def headRoot : RevisionRootV4 :=
  { schemaVersion := 4, normalizationSchemaVersion := 1, namespaceId := namespaceId, parentRevision := none,
    createdAt := "2026-01-01T00:00:00Z", threads := [⟨"t", blankDigest⟩], warningCount := 0 }

def trackingRecord : TrackingRecord :=
  { remoteId := selectionId, namespaceId := namespaceId, codexHomeKey := "/home", integratedHead := some blankDigest,
    remoteEpoch := 0, generation := 1, updatedAt := "2026-01-01T00:00:00Z" }

def input : PushInput where
  remoteId := selectionId
  namespaceId := namespaceId
  codexClosed := .ok ()
  info := .ok ()
  active := .ok none
  record := .ok (some trackingRecord)
  headState := .ok ⟨some blankDigest, 0⟩
  mapper _ := none
  scan := .ok ⟨[storedThread "threads"], storedContents, 0⟩
  install := .ok
  snapshotId := selectionId.text
  createdAt := "2026-01-03T00:00:00Z"
  revisionCreatedAt := "2026-01-03T00:00:00Z"
  served name := if name = blankDigest then .ok (headRoot, [storedThread "threads"]) else .error "not found"
  fetch _ files := .ok files
  upload := .ok ()
  cancelled := .ok ()

def pushedRoot : RevisionRootV4 :=
  { schemaVersion := 4, normalizationSchemaVersion := 1, namespaceId := namespaceId, parentRevision := some blankDigest,
    createdAt := "2026-01-02T00:00:00Z", threads := [], warningCount := 0 }

def emptySnapshot : LocalSnapshot :=
  { schemaVersion := localSnapshotSchemaVersion, snapshotId := selectionId.text, createdAt := "2026-01-02T00:00:00Z", threads := [],
    warningCount := 0 }

theorem roots_read : RootsReadBack codec := (canonical_reads_back sampleLib sample_floats).snapshotRoot

theorem root_valid : selectionRoot.validate = .ok () := rfl

theorem overlay_file : objectFile repository.files .snapshotOverlay overlayName = .ok overlayText :=
  (object_file_ok _ _ _ _).mpr ⟨digest_bytes_valid _ _, (Keyed.lookup_insert _ _ _ _).trans (if_pos rfl)⟩

theorem overlay_loads : loadOverlay sampleLib (canonicalDecoders sampleLib) repository.files overlayName =
    .ok (SnapshotOverlayV4.new ∅) := by
  have small : fileLength overlayText ≤ StorageObjectKindV4.snapshotOverlay.maxBytes := by decide +kernel
  have read : readObject sampleLib repository.files .snapshotOverlay overlayName = .ok overlayText :=
    (read_object_ok _ _ _ _ _).mpr ⟨digest_bytes_valid _ _, (Keyed.lookup_insert _ _ _ _).trans (if_pos rfl), small, rfl⟩
  have decoded := (canonical_reads_back sampleLib sample_floats).overlay (SnapshotOverlayV4.new ∅) fun id thread held => by
    rw [SnapshotOverlayV4.new, Std.ExtTreeMap.getElem?_empty] at held
    cases held
  simp only [loadOverlay, bind_ok, pure_ok, read_json_ok]
  exact ⟨_, ⟨_, read, decoded⟩, (), (ensure_ok _ _ _).mpr ⟨rfl, rfl⟩, rfl⟩

theorem newest : ∃ item, latestManifest codec repository = .ok item ∧ item.manifest = selectionId.text ∧
    item.metadata = selectionMetadata := by
  have one : repository.snapshots.toList = [(selectionId.text, canonicalJson sampleLib selectionRoot.toValue)] := rfl
  have stored : snapshotMetadata codec repository selectionId.text = .ok selectionMetadata := by
    have decoded : codec.metadata (canonicalJson sampleLib selectionMetadata.toValue) = .ok selectionMetadata :=
      by simp only [codec, if_true]
    rw [snapshotMetadata, repository, Keyed.lookup_insert, if_pos rfl]
    exact decoded
  have total : ∃ total, checkedTotal "snapshot physical byte count overflow" [] (fileLength overlayText) = .ok total := ⟨_, rfl⟩
  obtain ⟨total, summed⟩ := total
  refine ⟨⟨selectionId.text, "2026-01-02T00:00:00Z", selectionId.text, 0, 1, 0, total, 0, selectionMetadata⟩, ?_, rfl, rfl⟩
  have item : listItem codec repository (selectionId.text, canonicalJson sampleLib selectionRoot.toValue) =
      .ok ⟨selectionId.text, "2026-01-02T00:00:00Z", selectionId.text, 0, 1, 0, total, 0, selectionMetadata⟩ := by
    simp only [listItem, bind_ok, pure_ok, Prod.exists]
    exact ⟨selectionRoot, roots_read selectionRoot, (), root_valid, [], [], rfl, 0, rfl, overlayText, overlay_file, total, summed,
      selectionMetadata, stored, rfl⟩
  simp only [latestManifest, listLocalSnapshots, bind_ok, pure_ok, found_ok, one, listItems]
  exact ⟨_, ⟨_, ⟨_, item, [], rfl, rfl⟩, rfl⟩, rfl⟩

theorem loads : loadSnapshot codec repository selectionId.text = .ok (emptySnapshot, ∅) := by
  have fits : fileLength (canonicalJson sampleLib selectionRoot.toValue) ≤ maxRootBytes := by decide +kernel
  simp only [loadSnapshot, loadV4Snapshot, readBoundedV4, bind_ok, found_ok, pure_ok, Prod.exists]
  refine ⟨_, (Keyed.lookup_insert _ _ _ _).trans (if_pos rfl), selectionRoot,
    ⟨(), (ensure_ok _ _ _).mpr fits, roots_read selectionRoot⟩, (), root_valid, _, overlay_loads, [], ∅, rfl, rfl⟩

def pushedFiles : Files :=
  repository.files.insert (.revisionRoot, digestBytes sampleLib (canonicalJson sampleLib pushedRoot.toValue))
    (canonicalJson sampleLib pushedRoot.toValue)

theorem composes : snapshotToRevisionRootV4 sampleLib repository.files emptySnapshot namespaceId (some blankDigest) ∅ =
    .ok (pushedRoot, pushedFiles) := by
  have valid : pushedRoot.validate = .ok () := rfl
  have small : fileLength (canonicalJson sampleLib pushedRoot.toValue) ≤ StorageObjectKindV4.revisionRoot.maxBytes :=
    by decide +kernel
  have stored := store_json_fresh sampleLib repository.files .revisionRoot pushedRoot.toValue small (by
    rw [repository, Keyed.lookup_insert, if_neg (fun same => by cases (Prod.mk.inj same).1), Std.ExtTreeMap.getElem?_empty])
  simp only [snapshotToRevisionRootV4, storeRevisionRoot, bind_ok, pure_ok, Prod.exists, Prod.mk.injEq]
  exact ⟨[], repository.files, rfl, _, _, ⟨(), valid, stored⟩, rfl, rfl⟩

theorem head_served : input.served blankDigest = .ok (headRoot, [storedThread "threads"]) := by simp only [input, if_true]

theorem head_differs : sameAsHead codec input emptySnapshot (some blankDigest) pushedFiles = .ok (false, pushedFiles) := by
  have apart : threadStatesEqual sampleLib [storedThread "threads"] [] = .ok false := by
    have one : threadStateLoop sampleLib [storedThread "threads"] ∅ =
        .ok ((∅ : Std.ExtTreeMap String String).insert "t"
          (semanticThreadHash sampleLib (remoteThreadView (storedThread "threads")))) := rfl
    have none_ : threadStateLoop sampleLib [] ∅ = .ok ∅ := rfl
    simp only [threadStatesEqual, one, none_, bind_ok, pure_ok]
    exact ⟨_, rfl, ∅, rfl, rfl⟩
  simp only [sameAsHead, bind_ok, pure_ok]
  exact ⟨(headRoot, [storedThread "threads"]), head_served, pushedFiles, rfl, (), rfl, false, apart, rfl⟩

theorem pushes : Push.latest.run codec input repository = .ok (.commit pushedRoot, { repository with files := pushedFiles }) := by
  obtain ⟨item, listed, named, _⟩ := newest
  simp only [Push.run, pushLatestSnapshotNamespace, pushNamespaceWithSnapshot, bind_ok, pure_ok, Prod.exists]
  refine ⟨item, listed, (), rfl, (), rfl, none, rfl, (), rfl, some trackingRecord, rfl, ⟨some blankDigest, 0⟩, rfl, (), rfl,
    selectionId.text, repository, by rw [named]; rfl, emptySnapshot, ∅, loads, (), rfl, pushedRoot, pushedFiles, composes, ?_⟩
  refine ⟨_, rfl, false, pushedFiles, head_differs, .commit pushedRoot, ?_, rfl⟩
  simp only [decidePush, commitRoot, Bool.false_eq_true, if_false, bind_ok, pure_ok]
  exact ⟨(), rfl, (), rfl, (), rfl, trivial⟩

theorem found_thread : ParentThread input pushedRoot "t" :=
  ⟨blankDigest, (headRoot, [storedThread "threads"]), rfl, head_served, List.mem_singleton.mpr rfl⟩

theorem thread_dropped : ¬ DropsNothing codec input repository .latest pushedRoot := by
  intro drops
  rcases drops "t" found_thread List.not_mem_nil with ⟨prepared, scanned, absent⟩ | ⟨_, item, listed, deleted⟩
  · cases scanned
    exact absent (List.mem_singleton.mpr rfl)
  · obtain ⟨own, same, _, metadata⟩ := newest
    rw [listed] at same
    cases same
    rw [metadata] at deleted
    exact absurd deleted (by decide)

end Sample

open Sample in
theorem push_drops_nothing_sample : ¬ LatestComplete codec input repository := by
  have exact_ := push_drops_nothing_iff codec input roots_read repository _ .latest pushedRoot pushes
  exact fun complete => thread_dropped (exact_.mpr fun _ => complete)

-- Pushing the newest snapshot after a deletion was staged publishes an empty revision.
open Sample in
theorem latest_push_drops :
    ¬ ∀ (codec : LocalCodec) (input : PushInput) (repository after : LocalRepository) (push : Push) (root : RevisionRootV4),
      RootsReadBack codec → push.run codec input repository = .ok (.commit root, after) →
        DropsNothing codec input repository push root :=
  fun claim => thread_dropped (claim codec input repository _ .latest pushedRoot roots_read pushes)

end SessionSync.Sync
