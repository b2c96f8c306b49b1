import SessionSync.Server.Complete
import SessionSync.Core.Sha256
import SessionSync.Core.JsonLength
import Mathlib.Algebra.Order.BigOperators.Group.List
import Mathlib.Algebra.Group.Action.Defs

set_option autoImplicit false

namespace SessionSync.Server

open SessionSync.Core Checked Storage

theorem checked_sum_ok (values : List UInt64) (total result : UInt64) :
    checkedSum values total = some result ↔ total.toNat + (values.map UInt64.toNat).sum = result.toNat := by
  induction values generalizing total with
  | nil => rw [checkedSum, Option.some.injEq, List.map_nil, List.sum_nil, Nat.add_zero, UInt64.toNat_inj]
  | cons value rest ih =>
      rw [checkedSum, List.map_cons, List.sum_cons, ← Nat.add_assoc]
      by_cases room : total.toNat + value.toNat < 2 ^ 64
      · rw [if_pos room, ih, UInt64.toNat_add, Nat.mod_eq_of_lt room]
      · rw [if_neg room]
        have bound := result.toNat_lt
        refine iff_of_false nofun fun same => room ?_
        omega

theorem sql_integer_ok (value : UInt64) (id : String) (result : UInt64) :
    sqlInteger value id = .ok result ↔ value.toNat < 2 ^ 63 ∧ value = result := by
  unfold sqlInteger
  split
  · next fits => rw [Except.ok.injEq, and_iff_right fits]
  · next large => exact iff_of_false nofun fun both => large both.1

theorem revision_row_exists (revision : RevisionMetadata) :
    (∃ row, revisionRow revision = .ok row) ↔ revision.manifestByteLength.toNat < 2 ^ 63 ∧ revision.threadCount.toNat < 2 ^ 63 ∧
      revision.objectCount.toNat < 2 ^ 63 ∧ revision.totalBytes.toNat < 2 ^ 63 := by
  simp only [revisionRow, bind_ok, sql_integer_ok, pure_ok]
  constructor
  · rintro ⟨_, _, ⟨first, _⟩, _, ⟨second, _⟩, _, ⟨third, _⟩, _, ⟨fourth, _⟩, _⟩
    exact ⟨first, second, third, fourth⟩
  · rintro ⟨first, second, third, fourth⟩
    exact ⟨_, _, ⟨first, rfl⟩, _, ⟨second, rfl⟩, _, ⟨third, rfl⟩, _, ⟨fourth, rfl⟩, rfl⟩

-- What fromRevisionRootV4 makes of a valid root, and what normalizing leaves of it.
def rootMetadata (env : ServerEnv) (root : RevisionRootV4) (length objects total : UInt64) : NewRevisionMetadata where
  id := rootId env root
  namespaceId := root.namespaceId
  parentRevision := root.parentRevision
  createdAt := root.createdAt
  manifestByteLength := length
  threadCount := UInt64.ofNat root.threads.length
  objects := []
  objectCountOverride := some objects
  totalBytesOverride := some total
  rootSchemaVersion := 4

def normalRoot (env : ServerEnv) (root : RevisionRootV4) (length objects total : UInt64) : RevisionMetadata where
  id := rootId env root
  namespaceId := root.namespaceId
  parentRevision := root.parentRevision
  createdAt := root.createdAt
  manifestByteLength := length
  threadCount := UInt64.ofNat root.threads.length
  objectCount := objects
  totalBytes := total
  objects := []
  rootSchemaVersion := 4

section Root

variable (env : ServerEnv) (root : RevisionRootV4) (valid : root.validate = .ok ())

include valid

theorem root_valid_facts : root.namespaceId.version = 7 ∧ ∀ parent ∈ root.parentRevision, validSha256 parent = true := by
  simp only [RevisionRootV4.validate, bind_ok, ensure_ok] at valid
  obtain ⟨_, _, _, version, rest⟩ := valid
  refine ⟨version, fun parent member => ?_⟩
  rw [show root.parentRevision = some parent from member] at rest
  obtain ⟨_, checked, _⟩ := (bind_ok _ _ _).mp rest
  exact (ensure_ok _ _ _).mp checked

theorem root_revision_id : root.revisionId env.lib = .ok (rootId env root) := by
  simp only [RevisionRootV4.revisionId, bind_ok, pure_ok]
  exact ⟨(), valid, rfl⟩

theorem root_metadata_ok (length : UInt64) (graph : List StorageObjectRef) (metadata : NewRevisionMetadata) :
    NewRevisionMetadata.fromRevisionRootV4 env root length graph = .ok metadata ↔
      ∃ total, ((graph.map (·.byteLength)).map UInt64.toNat).sum = total.toNat ∧
        metadata = rootMetadata env root length (UInt64.ofNat graph.length) total := by
  simp only [NewRevisionMetadata.fromRevisionRootV4, root_revision_id env root valid, valid, bind_ok, map_error_ok, found_ok,
    checked_sum_ok, pure_ok, Except.ok.injEq, exists_eq_left', UInt64.toNat_zero, Nat.zero_add]
  constructor
  · intro ⟨_, _, total, sum, same⟩
    exact ⟨total, sum, same.symm⟩
  · intro ⟨total, sum, same⟩
    exact ⟨(), trivial, total, sum, same.symm⟩

end Root

-- The database of a server at the moment its head and epoch are the ones named.
theorem commit_root_created (lib : Primitives) (db : Database) (inv : HistoryInv db) (revision : NewRevisionMetadata)
    (normal : RevisionMetadata) (read : normalizeRevision lib revision = .ok normal) (epoch : UInt64)
    (current : getHeadState db revision.namespaceId = some (revision.parentRevision, epoch))
    (unrecorded : db.revisions[revision.id]? = none) :
    (∃ after later, commitRevisionRoot lib revision.parentRevision epoch revision db = .ok (after, .created, later)) ↔
      ∃ row, revisionRow normal = .ok row := by
  obtain ⟨sameId, sameSpace, sameParent⟩ := normalize_revision_keeps lib revision normal read
  obtain ⟨row, stored, state⟩ := Option.map_eq_some_iff.mp current
  rw [Prod.mk.injEq] at state
  obtain ⟨head, rfl⟩ := state
  have unread : readRevision db revision.id = none := by rw [readRevision, unrecorded, Option.map_none]
  have unrooted : db.revisionRoots[revision.id]? = none := by
    by_contra some_
    obtain ⟨found, rooted⟩ := Option.ne_none_iff_exists'.mp some_
    obtain ⟨_, old, known⟩ := inv.roots revision.id found rooted
    rw [unrecorded] at known
    cases known
  have parents : parentInNamespace db normal := by
    intro parent member
    rw [sameParent] at member
    obtain ⟨path, walk, members⟩ := inv.chain revision.namespaceId _ _ current
    rw [show revision.parentRevision = some parent from member] at walk
    cases path with
    | nil => cases walk
    | cons first rest =>
        obtain ⟨same, _⟩ := walk
        cases same
        obtain ⟨old, known, place, _⟩ := (members parent).mp List.mem_cons_self
        rw [known, sameSpace, Option.map_some, place]
  constructor
  · intro ⟨after, later, run⟩
    obtain ⟨other, _, reread, _, _, _, outcome⟩ := commit_revision_root_ok lib _ _ revision db after _ later run
    rw [read] at reread
    cases reread
    rcases outcome with ⟨impossible, _⟩ | ⟨_, _, _, _, _, written, found, _⟩
    · cases impossible
    · exact ⟨written, found⟩
  · intro ⟨written, found⟩
    rw [commitRevisionRoot, read]
    simp only [bind_ok, Except.ok.injEq, exists_eq_left', found_ok, ensure_ok, sameId, sameSpace, stored, unread, sameParent,
      Option.some.injEq, pure_ok, advance_head_ok, insert_new_ok]
    exact ⟨_, _, (), trivial, (), head, (), trivial, (), parents, _, ⟨written, found, unrecorded, rfl⟩, _, ⟨unrooted, rfl⟩, rfl⟩

section Commit

variable (env : ServerEnv) (debug : Option String → String) (root : RevisionRootV4)

theorem root_metadata_normal (valid : root.validate = .ok ()) (length objects total : UInt64) (normal : RevisionMetadata) :
    normalizeRevision env.lib (rootMetadata env root length objects total) = .ok normal ↔
      env.lib.isRfc3339 root.createdAt = true ∧ normal = normalRoot env root length objects total := by
  obtain ⟨version, parents⟩ := root_valid_facts root valid
  have empty : (∅ : Std.ExtTreeMap String UInt64).toList = [] := Std.ExtTreeMap.toList_eq_nil_iff.mpr rfl
  simp only [normalizeRevision, bind_ok, ensure_ok, found_ok, pure_ok]
  simp only [rootMetadata, normalRoot, objectLengths, Except.ok.injEq, exists_eq_left', empty, List.map_nil, checkedSum,
    Option.some.injEq, Option.getD_some]
  constructor
  · rintro ⟨_, _, _, _, _, _, _, timestamp, same⟩
    exact ⟨timestamp, same.symm⟩
  · rintro ⟨timestamp, same⟩
    exact ⟨(), digest_bytes_valid env.lib _, (), version, (), parents, (), timestamp, same.symm⟩

theorem commit_request_ok (valid : root.validate = .ok ()) (epoch : UInt64) (id : String) :
    RevisionCommitRequestV4.validate env debug ⟨root.parentRevision, epoch, root⟩ = .ok id ↔ id = rootId env root := by
  obtain ⟨_, parents⟩ := root_valid_facts root valid
  have known := root_revision_id env root valid
  simp only [RevisionCommitRequestV4.validate, valid, known, bind_ok, map_error_ok, ensure_ok, Except.ok.injEq, exists_eq_left']
  constructor
  · rintro ⟨_, _, _, _, rest⟩
    split at rest
    · obtain ⟨_, _, same⟩ := (bind_ok _ _ _).mp rest
      exact ((pure_ok _ _).mp same).symm
    · exact ((pure_ok _ _).mp rest).symm
  · intro same
    refine ⟨(), trivial, (), trivial, ?_⟩
    cases parent : root.parentRevision with
    | none => exact (pure_ok _ _).mpr same.symm
    | some head =>
        refine (bind_ok _ _ _).mpr ⟨(), ?_, (pure_ok _ _).mpr same.symm⟩
        rw [map_error_ok]
        exact (ensure_ok _ _ _).mpr (parents head parent)

-- The graph of a root has its root object, under the name the commit looks for.
theorem graph_root_object (catalog : Catalog) :
    ∃ object ∈ catalog.graph env root, ((catalog.graph env root).find? fun object => object.kind = .revisionRoot) = some object := by
  have listed_ : (StorageObjectKind.revisionRoot, rootId env root) ∈ (catalog.graph env root).map StorageObjectRef.key :=
    (graph_of_keys _ _).mpr List.mem_cons_self
  obtain ⟨object, member, named⟩ := List.mem_map.mp listed_
  have some_ : ((catalog.graph env root).find? fun object => object.kind = .revisionRoot).isSome = true := by
    rw [List.find?_isSome]
    exact ⟨object, member, decide_eq_true (congrArg Prod.fst named)⟩
  obtain ⟨found, known⟩ := Option.isSome_iff_exists.mp some_
  exact ⟨found, List.mem_of_find?_eq_some known, known⟩

-- The head and epoch that the commit names, and nothing recorded under its id.
structure Expected (db : Database) (epoch : UInt64) : Prop where
  current : getHeadState db root.namespaceId = some (root.parentRevision, epoch)
  unrecorded : db.revisions[rootId env root]? = none

def Created (epoch : UInt64) (state : ServerState) : Prop :=
  ∃ response after, (commitRevisionRootV4 env debug root.namespaceId ⟨root.parentRevision, epoch, root⟩).exec state =
    (.ok response, after) ∧ response.created = true

-- The last transaction of the commit, with the metadata of the graph.
theorem root_transaction (valid : root.validate = .ok ()) (epoch length objects total : UInt64) (db : Database) (inv : HistoryInv db)
    (expected : Expected env root db epoch) :
    (∃ after later, commitRevisionRoot env.lib root.parentRevision epoch (rootMetadata env root length objects total) db =
      .ok (after, .created, later)) ↔
      env.lib.isRfc3339 root.createdAt = true ∧ length.toNat < 2 ^ 63 ∧ root.threads.length % 2 ^ 64 < 2 ^ 63 ∧
        objects.toNat < 2 ^ 63 ∧ total.toNat < 2 ^ 63 := by
  have normal := root_metadata_normal env root valid length objects total
  have columns := revision_row_exists (normalRoot env root length objects total)
  simp only [normalRoot, UInt64.toNat_ofNat'] at columns
  constructor
  · intro ⟨after, later, run⟩
    obtain ⟨found, _, read, _⟩ := commit_revision_root_ok env.lib _ _ _ db after _ later run
    obtain ⟨timestamp, rfl⟩ := (normal found).mp read
    have row := (commit_root_created env.lib db inv _ _ read epoch expected.current expected.unrecorded).mp ⟨after, later, run⟩
    exact ⟨timestamp, columns.mp row⟩
  · intro ⟨timestamp, fits⟩
    have read := (normal _).mpr ⟨timestamp, rfl⟩
    exact (commit_root_created env.lib db inv _ _ read epoch expected.current expected.unrecorded).mpr (columns.mpr fits)

theorem committable_iff (catalog : Catalog) :
    Committable env catalog root ↔ (∀ reference ∈ root.threads, ThreadDistinct env catalog reference) ∧
      env.lib.isRfc3339 root.createdAt = true ∧ root.threads.length % 2 ^ 64 < 2 ^ 63 ∧
      (catalog.graph env root).length % 2 ^ 64 < 2 ^ 63 ∧
      ((catalog.graph env root).map fun object => object.byteLength.toNat).sum < 2 ^ 63 := by
  rw [thread_distinct_iff]
  constructor
  · intro fits
    exact ⟨⟨fits.chunks, fits.targets⟩, fits.createdAt, fits.threadCount, fits.objectCount, fits.totalBytes⟩
  · intro ⟨⟨chunks, targets⟩, createdAt, threadCount, objectCount, totalBytes⟩
    exact ⟨chunks, targets, createdAt, threadCount, objectCount, totalBytes⟩

theorem graph_lengths (graph : List StorageObjectRef) :
    (graph.map (·.byteLength)).map UInt64.toNat = graph.map fun object => object.byteLength.toNat := by
  rw [List.map_map]
  rfl

section Sent

variable (catalog : Catalog) (files : Files) (gcFiles : Std.ExtTreeMap (Uuid × ObjectKey) Bytes) (clock : Nanos) (calls : List Call)
  (epoch : UInt64) (uploaded : Uploaded env catalog files root) (expected : Expected env root (runCalls env.lib calls) epoch)

-- Edge rows are all that the validation may have changed when the transaction runs.
theorem settled_inv (edges : Edges) : HistoryInv { runCalls env.lib calls with objectEdges := edges } :=
  quiet_keeps _ _ (run_inv env.lib calls) ⟨fun _ => rfl, rfl, rfl, rfl⟩

include uploaded expected

theorem created_committable (created : Created env debug root epoch ⟨runCalls env.lib calls, files, gcFiles, clock⟩) :
    Committable env catalog root := by
  have valid := uploaded.valid
  have walk := traversal_revision env (rootId env root)
  have found := revision_found_iff env catalog files root uploaded
  obtain ⟨response, after, run, created⟩ := created
  simp only [commitRevisionRootV4, Prog.exec_bind_ok, Prog.exec_of_except, Prod.mk.injEq, invalidRequest, map_error_ok, found_ok,
    exec_transaction_ok] at run
  obtain ⟨_, _, ⟨request, rfl⟩, _, _, ⟨_, rfl⟩, ⟨seen, graph⟩, _, validated, run⟩ := run
  cases (commit_request_ok env debug root valid epoch _).mp request
  obtain ⟨⟨edges, rfl⟩, traversed⟩ := walk.only _ _ _ validated
  obtain ⟨same, distinct⟩ := (found _).mp traversed
  cases same
  obtain ⟨_, _, ⟨_, rfl⟩, object, _, ⟨_, rfl⟩, metadata, _, ⟨made, rfl⟩, ⟨outcome, later⟩, _, ⟨db, committed, rfl⟩, done⟩ := run
  cases done
  obtain ⟨total, sum, rfl⟩ := (root_metadata_ok env root valid _ _ _).mp made
  rw [show outcome = .created from of_decide_eq_true created] at committed
  obtain ⟨timestamp, _, threads, objects, bytes⟩ :=
    (root_transaction env root valid epoch _ _ total _
      (settled_inv env calls edges) ⟨expected.current, expected.unrecorded⟩).mp ⟨db, later, committed⟩
  rw [UInt64.toNat_ofNat'] at objects
  rw [← sum, graph_lengths] at bytes
  exact (committable_iff env root catalog).mpr ⟨distinct, timestamp, threads, objects, bytes⟩

theorem committable_created (fits : Committable env catalog root) :
    Created env debug root epoch ⟨runCalls env.lib calls, files, gcFiles, clock⟩ := by
  have valid := uploaded.valid
  have walk := traversal_revision env (rootId env root)
  have found := revision_found_iff env catalog files root uploaded
  obtain ⟨rootObject, listed_, named⟩ := graph_root_object env root catalog
  obtain ⟨distinct, timestamp, threads, objects, bytes⟩ := (committable_iff env root catalog).mp fits
  obtain ⟨edges, ran⟩ := walk.runs ⟨runCalls env.lib calls, files, gcFiles, clock⟩ _ ((found _).mpr ⟨rfl, distinct⟩)
  have fits : ((catalog.graph env root).map fun object => object.byteLength.toNat).sum < 2 ^ 64 := lt_trans bytes (by decide)
  have total : (UInt64.ofNat ((catalog.graph env root).map fun object => object.byteLength.toNat).sum).toNat =
      ((catalog.graph env root).map fun object => object.byteLength.toNat).sum := by
    rw [UInt64.toNat_ofNat', Nat.mod_eq_of_lt fits]
  have short : rootObject.byteLength.toNat < 2 ^ 63 := by
    have member : rootObject.byteLength.toNat ∈ (catalog.graph env root).map fun object => object.byteLength.toNat :=
      List.mem_map.mpr ⟨rootObject, listed_, rfl⟩
    exact lt_of_le_of_lt (List.single_le_sum (fun _ _ => Nat.zero_le _) _ member) bytes
  obtain ⟨db, later, committed⟩ := (root_transaction env root valid epoch rootObject.byteLength
    (UInt64.ofNat (catalog.graph env root).length) _ _ (settled_inv env calls edges) ⟨expected.current, expected.unrecorded⟩).mpr
    ⟨timestamp, short, threads, by rw [UInt64.toNat_ofNat']; exact objects, by rw [total]; exact bytes⟩
  refine ⟨⟨root.namespaceId, rootId env root, true, later⟩, ⟨db, files, gcFiles, clock⟩, ?_, rfl⟩
  simp only [commitRevisionRootV4, Prog.exec_bind_ok, Prog.exec_of_except, Prod.mk.injEq, invalidRequest, map_error_ok, found_ok,
    exec_transaction_ok]
  refine ⟨_, _, ⟨(commit_request_ok env debug root valid epoch _).mpr rfl, rfl⟩, (), _,
    ⟨(ensure_ok _ _ _).mpr trivial, rfl⟩, _, _, ran, (), _, ⟨(ensure_ok _ _ _).mpr rfl, rfl⟩, rootObject, _, ⟨named, rfl⟩, _, _,
    ⟨(root_metadata_ok env root valid _ _ _).mpr ⟨_, ?_, rfl⟩, rfl⟩, (.created, later), _, ⟨db, committed, rfl⟩, rfl⟩
  rw [graph_lengths, total]

end Sent

end Commit

namespace Sample

-- One thread whose rollout is one chunk, or the same chunk twice.
def primitives : Primitives where
  sha256 := Sha256.digest
  floatText _ := "0.0"
  isRfc3339 text := text = "2026-01-01T00:00:00Z"

def text (value : Value) : Bytes := canonicalJson primitives value

def name (value : Value) : String := digestBytes primitives (text value)

def chunk : ChunkDescriptorV4 := { sha256 := digestBytes primitives [97], byteLength := 1 }

def manifest (twice : Bool) : ChunkManifestV4 where
  schemaVersion := 4
  logicalSha256 := digestBytes primitives (if twice then [97, 97] else [97])
  byteLength := if twice then 2 else 1
  chunkSize := 1
  chunks := if twice then [chunk, chunk] else [chunk]

def rollout (twice : Bool) : ContentRefV4 where
  logicalSha256 := (manifest twice).logicalSha256
  byteLength := (manifest twice).byteLength
  storage := .chunked (name (manifest twice).toValue)
  mediaType := "application/x-ndjson"
  logicalPath := none

def descriptor (twice : Bool) : SemanticThreadDescriptorV4 where
  schemaVersion := 4
  normalizationSchemaVersion := 1
  threadId := "thread"
  title := ""
  archived := false
  createdAtMs := none
  updatedAtMs := none
  semanticWorkspace := { logicalId := none, canonicalHint := none }
  rollout := rollout twice
  relatedRecords := ∅
  attachments := []

def space : Uuid := BitVec.ofNat 128 (7 * 2 ^ 76)

def root (twice : Bool) : RevisionRootV4 where
  schemaVersion := 4
  normalizationSchemaVersion := 1
  namespaceId := space
  parentRevision := none
  createdAt := "2026-01-01T00:00:00Z"
  threads := [{ threadId := "thread", descriptorSha256 := name (descriptor twice).toValue }]
  warningCount := 0

def readBack {τ : Type} (encode : τ → Value) (value : τ) (bytes : Bytes) : Except String τ :=
  if bytes = text (encode value) then .ok value else .error "expected value"

def env (twice : Bool) : ServerEnv where
  lib := primitives
  serde := {
    revisionRoot := readBack RevisionRootV4.toValue (root twice)
    descriptor := readBack SemanticThreadDescriptorV4.toValue (descriptor twice)
    manifest := readBack ChunkManifestV4.toValue (manifest twice)
    overlay := fun _ => .error "expected value"
    snapshotRoot := fun _ => .error "expected value" }
  maxObjectBytes := 1024 * 1024 * 1024

def catalog (twice : Bool) : Catalog where
  descriptors sha256 := if sha256 = name (descriptor twice).toValue then some (descriptor twice) else none
  manifests sha256 := if sha256 = name (manifest twice).toValue then some (manifest twice) else none

def uploads (twice : Bool) : List (ObjectKey × Bytes) :=
  [((.chunk, chunk.sha256), [97]), ((.chunkManifest, name (manifest twice).toValue), text (manifest twice).toValue),
    ((.thread, name (descriptor twice).toValue), text (descriptor twice).toValue),
    ((.revisionRoot, name (root twice).toValue), text (root twice).toValue)]

def files (twice : Bool) : Files := (uploads twice).foldl (fun files upload => files.insert upload.1 upload.2) ∅

theorem manifest_valid (twice : Bool) : (manifest twice).validate = .ok () := by
  have valid : validSha256 chunk.sha256 = true := digest_bytes_valid _ _
  have logical : validSha256 (manifest twice).logicalSha256 = true := digest_bytes_valid _ _
  simp only [ChunkManifestV4.validate, validateSha256V4, bind_ok, ensure_ok]
  refine ⟨(), ⟨rfl, (by decide : (1 : UInt32) ≠ 0), (by decide : (1 : UInt32) ≤ chunkSizeV4)⟩, (), logical, _, ?_, (), rfl, ?_⟩
  · cases twice with
    | false =>
        simp only [manifest, Bool.false_eq_true, if_false, validateChunks, validateSha256V4, bind_ok, ensure_ok]
        exact ⟨(), valid, (), .inl trivial, (), by decide, (), by decide, rfl⟩
    | true =>
        simp only [manifest, if_true, validateChunks, validateSha256V4, bind_ok, ensure_ok]
        exact ⟨(), valid, (), .inr rfl, (), by decide, (), by decide, (), valid, (), .inl trivial, (), by decide, (), by decide, rfl⟩
  · cases twice with
    | false => exact .inl (by decide : (1 : UInt64) ≠ 0)
    | true => exact .inl (by decide : (2 : UInt64) ≠ 0)

theorem descriptor_valid (twice : Bool) : (descriptor twice).validate = .ok () := by
  have logical : validSha256 (manifest twice).logicalSha256 = true := digest_bytes_valid _ _
  have named : validSha256 (name (manifest twice).toValue) = true := digest_bytes_valid _ _
  have empty : (descriptor twice).relatedRecords.contains "thread_timeline_ledger" = false := Std.ExtTreeMap.contains_empty
  have visible : isBlank "application/x-ndjson" = false := by decide
  simp only [SemanticThreadDescriptorV4.validate, bind_ok, ensure_ok]
  refine ⟨(), ⟨rfl, rfl⟩, (), (by decide : isBlank "thread" = false), (), visible, (), ?_, empty⟩
  simp only [SemanticThreadDescriptorV4.contents, descriptor, validateContentRefsV4, validateContentRefV4, validateSha256V4, rollout,
    bind_ok, ensure_ok]
  exact ⟨(), ⟨(), logical, (), visible, named⟩, trivial⟩

theorem root_valid (twice : Bool) : (root twice).validate = .ok () := by
  have named : validSha256 (name (descriptor twice).toValue) = true := digest_bytes_valid _ _
  simp only [RevisionRootV4.validate, bind_ok, ensure_ok]
  refine ⟨(), ⟨rfl, rfl⟩, (), (by decide : space.version = 7), ?_⟩
  show validateThreadRefsV4 (root twice).threads [] = .ok ()
  simp only [root, validateThreadRefsV4, validateSha256V4, bind_ok, ensure_ok]
  exact ⟨(), by decide, (), named, (), List.not_mem_nil, trivial⟩

theorem short_text (value : Value) (narrow : width primitives value ≤ 100000) : fileLength (text value) ≤ 16 * 1024 * 1024 := by
  have bound := canonical_json_length primitives value
  rw [UInt64.le_iff_toNat_le, fileLength, UInt64.toNat_ofNat']
  have small : (text value).length % 2 ^ 64 ≤ (text value).length := Nat.mod_le _ _
  have limit : (16 * 1024 * 1024 : UInt64).toNat = 16777216 := by decide
  rw [limit]
  unfold text at *
  omega

theorem digit_length (value : Nat) (small : value < 10) : (Nat.toDigits 10 value).length = 1 := by
  interval_cases value <;> decide

theorem manifest_width (sha256 logical : String) (one : (writeString sha256).length ≤ 428)
    (other : (writeString logical).length ≤ 428) (length : UInt64) (small : length.toNat < 10) (twice : Bool) :
    width primitives (ChunkManifestV4.toValue ⟨4, logical, length, 1, if twice then [⟨sha256, 1⟩, ⟨sha256, 1⟩] else [⟨sha256, 1⟩]⟩) ≤
      100000 := by
  cases twice <;>
    simp [ChunkManifestV4.toValue, width, widthFields, widthElements, ChunkDescriptorV4.toValue, Value.nat, writeNumber, digit_length,
      small, writeString, escapeChar] at one other ⊢ <;>
    omega

theorem manifest_short (twice : Bool) : width primitives (manifest twice).toValue ≤ 100000 := by
  apply manifest_width _ _ (write_digest_length _ _) (write_digest_length _ _)
  cases twice <;> decide

theorem descriptor_short (twice : Bool) : width primitives (descriptor twice).toValue ≤ 100000 := by
  have named : (writeString (name (manifest twice).toValue)).length ≤ 428 := write_digest_length _ _
  have logical : (writeString (manifest twice).logicalSha256).length ≤ 428 := write_digest_length _ _
  have size : (Nat.toDigits 10 (manifest twice).byteLength.toNat).length = 1 := by cases twice <;> decide
  have empty : (∅ : Std.ExtTreeMap String (List Value)).toList = [] := Std.ExtTreeMap.toList_eq_nil_iff.mpr rfl
  simp [SemanticThreadDescriptorV4.toValue, width, widthFields, widthElements, descriptor, rollout, ContentRefV4.toValue,
    StorageRefV4.toValue, SemanticWorkspaceV4.toValue, Value.nat, Value.option, writeNumber, digit_length, writeString, escapeChar,
    empty, size] at named logical ⊢
  omega

theorem root_short (twice : Bool) : width primitives (root twice).toValue ≤ 100000 := by
  have named : (writeString (name (descriptor twice).toValue)).length ≤ 428 := write_digest_length _ _
  have space_ : (writeString space.text).length ≤ 6 * space.text.toList.length + 2 := write_string_length _
  have letters : space.text.toList.length = 36 := by decide +kernel
  rw [letters] at space_
  simp [RevisionRootV4.toValue, width, widthFields, widthElements, root, ThreadRefV4.toValue, Value.nat, Value.option, writeNumber,
    digit_length, writeString, escapeChar] at named space_ ⊢
  omega

theorem files_hold (twice : Bool) (upload : ObjectKey × Bytes) (member : upload ∈ uploads twice) :
    (files twice)[upload.1]? = some upload.2 := by
  simp only [uploads, List.mem_cons, List.not_mem_nil, or_false] at member
  rcases member with rfl | rfl | rfl | rfl <;>
    simp only [files, uploads, List.foldl_cons, List.foldl_nil, Keyed.lookup_insert, Prod.mk.injEq, reduceCtorEq, false_and, if_false,
      if_true]

theorem structured_stored {τ : Type} (twice : Bool) (encode : τ → Value) (value : τ) (kind : StorageObjectKind)
    (member : ((kind, name (encode value)), text (encode value)) ∈ uploads twice) (narrow : width primitives (encode value) ≤ 100000)
    (structured : isStructured kind = true) :
    StoredAs (env twice) (files twice) (readBack encode value) encode (kind, name (encode value)) value where
  stored := files_hold twice _ member
  digest := rfl
  decodes := by
    unfold readBack
    exact if_pos rfl
  limit := by
    have short := short_text (encode value) narrow
    cases kind with
    | whole => cases structured
    | chunk => cases structured
    | chunkManifest | thread | revisionRoot =>
        exact UInt64.le_trans short (by decide : (16 * 1024 * 1024 : UInt64) ≤ min (16 * 1024 * 1024) (1024 * 1024 * 1024))

theorem blob_stored (twice : Bool) : BlobStored (env twice) (files twice) (chunkObject chunk) := by
  refine ⟨(by decide : (1 : UInt64) ≤ min (8 * 1024 * 1024) (1024 * 1024 * 1024)), [97], ?_, rfl, rfl⟩
  exact files_hold twice ((.chunk, chunk.sha256), [97]) List.mem_cons_self

theorem manifest_chunks (twice : Bool) : ∀ one ∈ (manifest twice).chunks, one = chunk := by
  intro one member
  cases twice with
  | false => exact List.mem_singleton.mp member
  | true => exact (List.mem_cons.mp member).elim id List.mem_singleton.mp

theorem manifest_known (twice : Bool) : (catalog twice).manifests (name (manifest twice).toValue) = some (manifest twice) := by
  simp only [catalog, if_true]

theorem descriptor_known (twice : Bool) :
    (catalog twice).descriptors (name (descriptor twice).toValue) = some (descriptor twice) := by
  simp only [catalog, if_true]

theorem rollout_uploaded (twice : Bool) : ContentUploaded (env twice) (catalog twice) (files twice) (rollout twice) := by
  have stored : StoredAs (env twice) (files twice) (env twice).serde.manifest ChunkManifestV4.toValue
      (.chunkManifest, name (manifest twice).toValue) (manifest twice) := by
    apply structured_stored twice
    · simp only [uploads, List.mem_cons, true_or, or_true]
    · exact manifest_short twice
    · rfl
  exact ⟨manifest twice, manifest_known twice, stored, manifest_valid twice, rfl, rfl, fun one member =>
    manifest_chunks twice one member ▸ blob_stored twice⟩

theorem thread_uploaded (twice : Bool) : ThreadUploaded (env twice) (catalog twice) (files twice)
    { threadId := "thread", descriptorSha256 := name (descriptor twice).toValue } := by
  have two : StoredAs (env twice) (files twice) (env twice).serde.descriptor SemanticThreadDescriptorV4.toValue
    (.thread, name (descriptor twice).toValue) (descriptor twice) := by
    apply structured_stored twice
    · simp only [uploads, List.mem_cons, true_or, or_true]
    · exact descriptor_short twice
    · rfl
  have contents : ∀ other ∈ (descriptor twice).contents, ContentUploaded (env twice) (catalog twice) (files twice) other := by
    intro other inside
    have same : other = rollout twice := List.mem_singleton.mp inside
    rw [same]
    exact rollout_uploaded twice
  exact ⟨descriptor twice, descriptor_known twice, two, descriptor_valid twice, rfl, contents⟩

theorem uploaded (twice : Bool) : Uploaded (env twice) (catalog twice) (files twice) (root twice) := by
  have stored : StoredAs (env twice) (files twice) (env twice).serde.revisionRoot RevisionRootV4.toValue
      (.revisionRoot, name (root twice).toValue) (root twice) := by
    apply structured_stored twice
    · simp only [uploads, List.mem_cons, true_or, or_true]
    · exact root_short twice
    · rfl
  refine ⟨stored, root_valid twice, fun reference member => ?_⟩
  have same : reference = { threadId := "thread", descriptorSha256 := name (descriptor twice).toValue } :=
    List.mem_singleton.mp member
  rw [same]
  exact thread_uploaded twice

def calls : List Call := [.createNamespace "main" space]

theorem calls_run : runCalls primitives calls = { Database.initialized with
    namespaces := Database.initialized.namespaces.insert space
      { displayName := "main", headRevision := none, namespaceEpoch := 0 } } := by
  have trimmed : normalizeName "main" = .ok "main" := by decide +kernel
  have made : createNamespace "main" space Database.initialized =
      .ok ({ Database.initialized with
        namespaces := Database.initialized.namespaces.insert space
          { displayName := "main", headRevision := none, namespaceEpoch := 0 } },
        space) := by
    simp only [createNamespace, trimmed, bind_ok, Except.ok.injEq, exists_eq_left', insert_new_ok, pure_ok]
    exact ⟨_, ⟨Std.ExtTreeMap.getElem?_empty, rfl⟩, rfl⟩
  simp only [runCalls, calls, List.foldl_cons, List.foldl_nil, step, Call.run, made]
  rfl

theorem expected (twice : Bool) : Expected (env twice) (root twice) (runCalls primitives calls) 0 := by
  rw [calls_run]
  refine ⟨?_, Std.ExtTreeMap.getElem?_empty⟩
  exact (head_state_insert Database.initialized space _ space).trans (if_pos rfl)

def graph (twice : Bool) : List StorageObjectRef :=
  [structuredObject (env twice) .revisionRoot (name (root twice).toValue) (root twice).toValue,
    structuredObject (env twice) .thread (name (descriptor twice).toValue) (descriptor twice).toValue,
    structuredObject (env twice) .chunkManifest (name (manifest twice).toValue) (manifest twice).toValue] ++
    (manifest twice).chunks.map chunkObject

theorem content_objects (twice : Bool) : (catalog twice).contentObjects (env twice) (rollout twice) =
    structuredObject (env twice) .chunkManifest (name (manifest twice).toValue) (manifest twice).toValue ::
      (manifest twice).chunks.map chunkObject := by
  simp only [Catalog.contentObjects, rollout, catalog, if_true]

theorem descriptor_only (twice : Bool) (reference : ThreadRefV4) (found : SemanticThreadDescriptorV4)
    (known : (catalog twice).descriptors reference.descriptorSha256 = some found) :
    found = descriptor twice := by
  simp only [catalog] at known
  split at known
  · exact (Option.some.inj known).symm
  · cases known

theorem graph_listed (twice : Bool) : (catalog twice).graph (env twice) (root twice) = graphOf (graph twice) := by
  have thread : (catalog twice).threadObjects (env twice)
      { threadId := "thread", descriptorSha256 := name (descriptor twice).toValue } =
      some (structuredObject (env twice) .thread (name (descriptor twice).toValue) (descriptor twice).toValue,
        (catalog twice).contentObjects (env twice) (rollout twice)) := by
    simp only [Catalog.threadObjects, catalog, if_true, Option.map_some, SemanticThreadDescriptorV4.contents, descriptor,
      List.flatMap_cons, List.flatMap_nil, List.append_nil]
  have listed_ : (root twice).threads.filterMap ((catalog twice).threadObjects (env twice)) =
      [(structuredObject (env twice) .thread (name (descriptor twice).toValue) (descriptor twice).toValue,
        (catalog twice).contentObjects (env twice) (rollout twice))] := by
    rw [root, List.filterMap_cons_some thread, List.filterMap_nil]
  rw [Catalog.graph, listed_, content_objects]
  simp only [listed, List.flatMap_cons, List.flatMap_nil, List.append_nil, graph, List.cons_append, List.nil_append]
  rfl

theorem graph_short (object : StorageObjectRef) (member : object ∈ graph false) : object.byteLength.toNat ≤ 16777216 := by
  have short : ∀ value, width primitives value ≤ 100000 → (fileLength (text value)).toNat ≤ 16777216 := by
    intro value narrow
    have bound := UInt64.le_iff_toNat_le.mp (short_text value narrow)
    rwa [show (16 * 1024 * 1024 : UInt64).toNat = 16777216 by decide] at bound
  simp only [graph, manifest, Bool.false_eq_true, if_false, List.map_cons, List.map_nil, List.cons_append, List.nil_append,
    List.mem_cons, List.not_mem_nil, or_false] at member
  rcases member with rfl | rfl | rfl | rfl
  · exact short _ (root_short false)
  · exact short _ (descriptor_short false)
  · exact short _ (manifest_short false)
  · exact (by decide : (1 : UInt64).toNat ≤ 16777216)

theorem few_small (lengths : List Nat) (few : lengths.length ≤ 4) (each : ∀ length ∈ lengths, length ≤ 16777216) :
    lengths.sum < 2 ^ 63 := by
  have bound : lengths.sum ≤ lengths.length * 16777216 := by
    simpa only [smul_eq_mul] using List.sum_le_card_nsmul lengths _ each
  generalize lengths.sum = total at bound ⊢
  generalize lengths.length = count at few bound
  omega

theorem committable : Committable (env false) (catalog false) (root false) := by
  have targets : ((descriptor false).contents.flatMap ((catalog false).contentObjects (env false))).map StorageObjectRef.key =
      [(.chunkManifest, name (manifest false).toValue), (.chunk, chunk.sha256)] := by
    simp only [SemanticThreadDescriptorV4.contents, descriptor, List.flatMap_cons, List.flatMap_nil, List.append_nil, content_objects]
    rfl
  have size : ((catalog false).graph (env false) (root false)).length ≤ 4 := by
    rw [graph_listed]
    exact graph_of_length (graph false)
  refine ⟨fun reference member found known content inside sha256 other _ stored => ?_, fun reference _ found known => ?_,
    ?_, ?_, ?_, ?_⟩
  · simp only [catalog] at stored
    split at stored
    · cases stored
      exact List.nodup_singleton _
    · cases stored
  · rw [descriptor_only false reference found known, targets]
    simp only [List.nodup_cons, List.mem_singleton, Prod.mk.injEq, reduceCtorEq, false_and, not_false_eq_true, List.not_mem_nil,
      List.nodup_nil, and_self]
  · show decide ("2026-01-01T00:00:00Z" = "2026-01-01T00:00:00Z") = true
    exact decide_eq_true rfl
  · exact (by decide : 1 % 2 ^ 64 < 2 ^ 63)
  · omega
  · have each : ∀ length ∈ ((catalog false).graph (env false) (root false)).map fun object => object.byteLength.toNat,
        length ≤ 16777216 := by
      intro length member
      obtain ⟨object, inside, rfl⟩ := List.mem_map.mp member
      rw [graph_listed] at inside
      exact graph_short object (graph_of_member _ object inside)
    refine few_small _ ?_ each
    rw [List.length_map]
    exact size

-- {:?} of an optional id.
def debug (head : Option String) : String := (head.map fun id => "Some(\"" ++ id ++ "\")").getD "None"

end Sample

theorem commit_created_iff (env : ServerEnv) (debug : Option String → String) (root : RevisionRootV4) (catalog : Catalog)
    (files : Files) (gcFiles : Std.ExtTreeMap (Uuid × ObjectKey) Bytes) (clock : Nanos) (calls : List Call) (epoch : UInt64)
    (uploaded : Uploaded env catalog files root) (expected : Expected env root (runCalls env.lib calls) epoch) :
    Created env debug root epoch ⟨runCalls env.lib calls, files, gcFiles, clock⟩ ↔ Committable env catalog root :=
  ⟨created_committable env debug root catalog files gcFiles clock calls epoch uploaded expected,
    committable_created env debug root catalog files gcFiles clock calls epoch uploaded expected⟩

theorem sample_created : Created (Sample.env false) Sample.debug (Sample.root false) 0
    ⟨runCalls Sample.primitives Sample.calls, Sample.files false, ∅, 0⟩ :=
  (commit_created_iff (Sample.env false) Sample.debug (Sample.root false) (Sample.catalog false)
    (Sample.files false) ∅ 0 Sample.calls 0
    (Sample.uploaded false) (Sample.expected false)).mpr Sample.committable

-- A manifest that lists one chunk twice is never accepted.
theorem repeated_chunk_refused :
    Uploaded (Sample.env true) (Sample.catalog true) (Sample.files true) (Sample.root true) ∧
      Expected (Sample.env true) (Sample.root true) (runCalls Sample.primitives Sample.calls) 0 ∧
      ¬ Created (Sample.env true) Sample.debug (Sample.root true) 0
        ⟨runCalls Sample.primitives Sample.calls, Sample.files true, ∅, 0⟩ := by
  refine ⟨Sample.uploaded true, Sample.expected true, fun created => ?_⟩
  have fits := created_committable (Sample.env true) Sample.debug (Sample.root true) (Sample.catalog true) (Sample.files true) ∅ 0
    Sample.calls 0 (Sample.uploaded true) (Sample.expected true) created
  have once := fits.chunks _ List.mem_cons_self (Sample.descriptor true) (Sample.descriptor_known true) _ List.mem_cons_self _
    (Sample.manifest true) rfl (Sample.manifest_known true)
  exact (List.nodup_cons.mp once).1 List.mem_cons_self

end SessionSync.Server
