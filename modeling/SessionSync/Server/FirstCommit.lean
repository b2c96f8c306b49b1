import SessionSync.Server.CommitComplete
import SessionSync.Server.Serve

set_option autoImplicit false

namespace SessionSync.Server

open SessionSync.Core Checked Storage

def recordUpload (upload : ObjectKey × Bytes) (clock : Nanos) : Call :=
  .recordStorageObject ⟨upload.1.1, upload.1.2, fileLength upload.2⟩ clock

theorem min_le_first (one other : UInt64) : min one other ≤ one := by
  by_cases order : one ≤ other
  · rw [UInt64.min_def, if_pos order]
    exact UInt64.le_refl one
  · rw [UInt64.min_def, if_neg order]
    exact UInt64.le_of_lt (UInt64.not_le.mp order)

-- The row of an upload is written in a transaction of its own.
theorem record_runs (env : ServerEnv) (object : StorageObjectRef) (state : ServerState) :
    ((transaction fun now db => do
      let db ← recordStorageObject object now db
      return (db, ())).exec state).2 = { state with db := step env.lib state.db (.recordStorageObject object state.clock) } := by
  rw [transaction, Prog.transact, Prog.exec, Prog.exec_of_except, Prog.attemptStep, step, Call.run]
  cases recordStorageObject object state.clock state.db <;> rfl

section Absent

variable (env : ServerEnv) (key : ObjectKey) (bytes : Bytes) (state : ServerState) (absent : key ∉ state.files)
  (digest : digestBytes env.lib bytes = key.2) (small : bytes.length < 2 ^ 64) (limit : fileLength bytes ≤ env.limit key.1)

include absent digest small limit

theorem put_stream_absent : (putStream env key (fileLength bytes) [bytes]).exec state =
    (.ok true, { state with files := state.files.insert key bytes }) := by
  have named : validSha256 key.2 = true := digest ▸ digest_bytes_valid env.lib bytes
  have missing : state.files.contains key = false := Bool.eq_false_iff.mpr absent
  have received : writeVerifiedTemp env (env.limit key.1) (fileLength bytes) key.2 [bytes] [] = .ok bytes := by
    simp only [writeVerifiedTemp, List.nil_append, bind_ok, ensure_ok, pure_ok]
    exact ⟨(), small, (), limit, (), UInt64.le_refl _, (), trivial, (), digest, trivial⟩
  have present : (Prog.query (ε := ObjectStoreError) fun state : ServerState => state.files.contains key).exec state =
    (.ok false, state) := by
    rw [Prog.query, Prog.exec, missing, Prog.exec]
  have installed : (Prog.act (ε := ObjectStoreError) (renameInto key bytes) .ret).exec state =
      (.ok true, { state with files := state.files.insert key bytes }) := by
    rw [Prog.exec, renameInto, missing, if_neg Bool.false_ne_true, Prog.exec]
  simp only [putStream, Prog.exec_bind, Prog.exec_of_except, objectPath, ensure, named, limit, received, present, installed,
    Bool.false_eq_true, if_false, if_true]
  rfl

-- An upload of an object that is absent installs it, whatever becomes of its row.
theorem put_absent : ((putTypedObject env key (fileLength bytes) [bytes]).exec state).2 =
    { state with
      files := state.files.insert key bytes
      db := step env.lib state.db (recordUpload (key, bytes) state.clock) } := by
  have named : validSha256 key.2 = true := digest ▸ digest_bytes_valid env.lib bytes
  have kind : fileLength bytes ≤ key.1.maxBytes := UInt64.le_trans limit (min_le_first _ _)
  have stored := put_stream_absent env key bytes state absent digest small limit
  have recorded := record_runs env ⟨key.1, key.2, fileLength bytes⟩ { state with files := state.files.insert key bytes }
  rw [recordUpload, ← recorded]
  simp only [putTypedObject, Prog.exec_bind, Prog.exec_of_except, ensure, named, kind, if_true, Prog.exec_map_error, stored,
    Except.mapError]
  generalize Prog.exec _ _ = outcome
  cases outcome with
  | mk result after => cases result <;> rfl

variable (sys : Gate.System ServerState HttpError Reply) (start : ServerState)
  (asked : sys.request .shared (Reply.stored <$> putTypedObject env key (fileLength bytes) [bytes])) (replies : List Reply)
  (reached : Gate.Reachable sys start ⟨state, [], true, replies⟩)

include asked reached

theorem put_reachable : Gate.Reachable sys start
    ⟨{ state with files := state.files.insert key bytes, db := step env.lib state.db (recordUpload (key, bytes) state.clock) }, [],
      true, replies⟩ := by
  have next := Gate.request_reachable _ _ .shared _ asked _ _ reached
  rwa [Prog.exec_map, put_absent env key bytes state absent digest small limit] at next

-- An upload that is given up after the rename leaves the file alone.
theorem put_cut_reachable : Gate.Reachable sys start ⟨{ state with files := state.files.insert key bytes }, [], true, replies⟩ := by
  refine Gate.request_cut _ _ .shared _ asked state _ _ (Prog.cut_map _ _ _ _ ?_) reached
  have stored := put_stream_absent env key bytes state absent digest small limit
  have renamed := Prog.cut_exec ((putStream env key (fileLength bytes) [bytes]).mapError HttpError.objectStore) state
  rw [Prog.exec_map_error, stored] at renamed
  have named : validSha256 key.2 = true := digest ▸ digest_bytes_valid env.lib bytes
  have kind : fileLength bytes ≤ key.1.maxBytes := UInt64.le_trans limit (min_le_first _ _)
  rw [putTypedObject]
  refine Prog.cut_later _ _ _ state _ () ?_ (Prog.cut_later _ _ _ state _ () ?_ (Prog.cut_first _ _ _ _ renamed))
  · rw [Prog.exec_of_except, ensure, if_pos named]
  · rw [Prog.exec_of_except, ensure, if_pos kind]

end Absent

theorem record_keeps (lib : Primitives) (db : Database) (object : StorageObjectRef) (now : Nanos) :
    (step lib db (.recordStorageObject object now)).namespaces = db.namespaces ∧
      (step lib db (.recordStorageObject object now)).revisions = db.revisions := by
  unfold step
  cases outcome : (Call.recordStorageObject object now).run lib db with
  | error reason => exact ⟨rfl, rfl⟩
  | ok after =>
      simp only [Call.run, recordStorageObject, bind_ok] at outcome
      obtain ⟨length, _, rest⟩ := outcome
      split at rest <;> cases rest <;> exact ⟨rfl, rfl⟩

theorem quiet_expected (env : ServerEnv) (root : RevisionRootV4) (epoch : UInt64) (db after : Database)
    (spaces : after.namespaces = db.namespaces) (revisions : after.revisions = db.revisions) (expected : Expected env root db epoch) :
    Expected env root after epoch where
  current := (congrArg (fun spaces => spaces[root.namespaceId]?.map _) spaces).trans expected.current
  unrecorded := (congrArg (fun revisions => revisions[rootId env root]?) revisions).trans expected.unrecorded

theorem records_expected (env : ServerEnv) (root : RevisionRootV4) (epoch : UInt64) (clock : Nanos)
    (uploads : List (ObjectKey × Bytes)) (db : Database) (expected : Expected env root db epoch) :
    Expected env root ((uploads.map fun upload => recordUpload upload clock).foldl (step env.lib) db) epoch := by
  induction uploads generalizing db with
  | nil => exact expected
  | cons upload rest ih =>
      obtain ⟨spaces, revisions⟩ := record_keeps env.lib db ⟨upload.1.1, upload.1.2, fileLength upload.2⟩ clock
      exact ih _ (quiet_expected env root epoch db _ spaces revisions expected)

namespace Sample

def Served (state : ServerState) (replies : List Reply) : Prop :=
  Gate.Reachable (server (env false) debug) (ServerState.initialized 0) ⟨state, [], true, replies⟩

theorem served_boot : Served (ServerState.initialized 0) [] := by
  have empty : Database.initialized.gcQueue.toList = [] := Std.ExtTreeMap.toList_eq_nil_iff.mpr rfl
  apply Gate.boot_reachable _ _ .resumed
  have pending : pendingGcEntries Database.initialized = [] := by
    rw [pendingGcEntries, empty, List.filter_nil, List.insertionSort_nil, List.map_nil]
  simp only [server, Prog.exec_map, resumePendingGc, ServerState.initialized, transaction, Prog.transact, Prog.exec_bind, Prog.exec,
    Prog.attemptStep, pending, Prog.ofExcept, processGcEntries]
  rfl

theorem served_namespace : Served ⟨runCalls primitives calls, ∅, ∅, 0⟩ [] := by
  have served := Gate.request_reachable _ _ .free _ (Request.createNamespace "main" space) _ _ served_boot
  rw [Prog.exec_map, Api.createNamespace, transaction, Prog.transact, Prog.exec, Prog.exec_of_except, Prog.attemptStep] at served
  rw [Served, runCalls, calls, List.foldl_cons, List.foldl_nil, step, Call.run]
  cases made : createNamespace "main" space Database.initialized with
  | error reason => simpa only [ServerState.initialized, made, Functor.map, Except.map] using served
  | ok pair => simpa only [ServerState.initialized, made, Functor.map, Except.map] using served

-- What an upload needs to be installed.
def Acceptable (upload : ObjectKey × Bytes) : Prop :=
  digestBytes primitives upload.2 = upload.1.2 ∧ upload.2.length < 2 ^ 64 ∧ fileLength upload.2 ≤ (env false).limit upload.1.1

theorem uploads_reachable (sys : Gate.System ServerState HttpError Reply) (start : ServerState)
    (uploads : List (ObjectKey × Bytes)) (acceptable : ∀ upload ∈ uploads, Acceptable upload)
    (asked : ∀ upload ∈ uploads,
      sys.request .shared (Reply.stored <$> putTypedObject (env false) upload.1 (fileLength upload.2) [upload.2]))
    (db : Database) (files : Files) (gcFiles : Std.ExtTreeMap (Uuid × ObjectKey) Bytes) (clock : Nanos) (replies : List Reply)
    (distinct : (uploads.map Prod.fst).Nodup) (absent : ∀ upload ∈ uploads, upload.1 ∉ files)
    (served : Gate.Reachable sys start ⟨⟨db, files, gcFiles, clock⟩, [], true, replies⟩) :
    Gate.Reachable sys start ⟨⟨(uploads.map fun upload => recordUpload upload clock).foldl (step primitives) db,
      uploads.foldl (fun files upload => files.insert upload.1 upload.2) files, gcFiles, clock⟩, [], true, replies⟩ := by
  induction uploads generalizing db files with
  | nil => exact served
  | cons upload rest ih =>
      obtain ⟨digest, small, limit⟩ := acceptable upload List.mem_cons_self
      obtain ⟨fresh, distinct⟩ := List.nodup_cons.mp distinct
      have next := put_reachable (env false) upload.1 upload.2 _ (absent upload List.mem_cons_self) digest small limit _ _
        (asked upload List.mem_cons_self) _ served
      refine ih (fun other member => acceptable other (List.mem_cons_of_mem _ member))
        (fun other member => asked other (List.mem_cons_of_mem _ member)) _ _ distinct (fun other member inside => ?_) next
      rcases Std.ExtTreeMap.mem_insert.mp inside with same | before
      · exact fresh (List.mem_map.mpr ⟨other, member, (Std.LawfulEqCmp.eq_of_compare same).symm⟩)
      · exact absent other (List.mem_cons_of_mem _ member) before

theorem structured_acceptable (kind : StorageObjectKind) (value : Value) (narrow : width primitives value ≤ 100000)
    (structured : isStructured kind = true) : Acceptable ((kind, name value), text value) := by
  have bound : (text value).length ≤ 4 * 100000 :=
    Nat.le_trans (canonical_json_length primitives value) (Nat.mul_le_mul_left 4 narrow)
  refine ⟨rfl, Nat.lt_of_le_of_lt bound (by decide), ?_⟩
  have short := short_text value narrow
  cases kind with
  | whole => cases structured
  | chunk => cases structured
  | chunkManifest | thread | revisionRoot =>
      exact UInt64.le_trans short (by decide : (16 * 1024 * 1024 : UInt64) ≤ min (16 * 1024 * 1024) (1024 * 1024 * 1024))

theorem uploads_acceptable (upload : ObjectKey × Bytes) (member : upload ∈ uploads false) : Acceptable upload := by
  simp only [uploads, List.mem_cons, List.not_mem_nil, or_false] at member
  rcases member with rfl | rfl | rfl | rfl
  · exact ⟨rfl, by decide, (by decide : (1 : UInt64) ≤ min (8 * 1024 * 1024) (1024 * 1024 * 1024))⟩
  · exact structured_acceptable .chunkManifest _ (manifest_short false) rfl
  · exact structured_acceptable .thread _ (descriptor_short false) rfl
  · exact structured_acceptable .revisionRoot _ (root_short false) rfl

theorem uploads_distinct : ((uploads false).map Prod.fst).Nodup := by
  simp only [uploads, List.map_cons, List.map_nil, List.nodup_cons, List.mem_cons, List.not_mem_nil, Prod.mk.injEq, reduceCtorEq,
    false_and, or_self, not_false_eq_true, List.nodup_nil, and_self]

def sent : List Call := calls ++ (uploads false).map fun upload => recordUpload upload 0

theorem served_sample : Served ⟨runCalls primitives sent, files false, ∅, 0⟩ [] := by
  have served := uploads_reachable _ _ (uploads false) uploads_acceptable (fun _ _ => Request.putTypedObject _ _ _) _ _ _ _ _
    uploads_distinct (fun _ _ => Std.ExtTreeMap.not_mem_empty) served_namespace
  rwa [runCalls, ← List.foldl_append] at served

-- The commit of the uploaded root is answered with Created.
theorem served_commit : ∃ response after, response.created = true ∧ Served after [.committed response] := by
  have records : Expected (env false) (root false) (runCalls primitives sent) 0 := by
    rw [runCalls, sent, List.foldl_append]
    exact records_expected (env false) (root false) 0 0 (uploads false) _ (expected false)
  obtain ⟨response, after, run, created⟩ :=
    committable_created (env false) debug (root false) (catalog false) (files false) ∅ 0 sent 0 (uploaded false) records committable
  refine ⟨response, after, created, ?_⟩
  apply Gate.reply_reachable _ _ .shared _ (Request.commitRevisionRootV4 space ⟨(root false).parentRevision, 0, root false⟩) _ _ _ _
    served_sample
  rw [Prog.exec_map]
  exact congrArg (fun outcome => (outcome.1.map Reply.committed, outcome.2)) run

end Sample

end SessionSync.Server
