import SessionSync.Server.Steps

set_option autoImplicit false

namespace SessionSync.Server

open SessionSync.Core Checked

-- Every writing call of the metadata store. What the call draws from its
-- surroundings, a fresh id or the clock, is an argument with no condition on it.
inductive Call where
  | createNamespace (displayName : String) (id : Uuid)
  | renameNamespace (namespaceId : Uuid) (displayName : String)
  | recordStorageObject (object : StorageObjectRef) (now : Nanos)
  | replaceObjectEdges (owner : StorageObjectRef) (targets : List StorageObjectRef)
  | commitRevision (expectedHead : Option String) (revision : NewRevisionMetadata)
  | commitRevisionRoot (expectedHead : Option String) (expectedEpoch : UInt64) (revision : NewRevisionMetadata)
  | truncateHistory (namespaceId : Uuid) (expectedHead : Option String) (expectedEpoch : UInt64) (newHead : Option String)
      (operationId : Uuid) (now : Nanos)
  | restoreHistoryTrash (namespaceId operationId : Uuid) (expectedHead : Option String) (expectedEpoch : UInt64) (now : Nanos)
  | commitHistoryTrashPurge (namespaceId : Uuid) (expected : HistoryTrashPurgePlan) (operationId : Uuid) (ids : Nat → Uuid)
      (now : Nanos)
  | enqueueGc (expectedFingerprint : String) (operationId : Uuid) (ids : Nat → Uuid) (now : Nanos)
  | completeGcEntry (entry : GcQueueEntry) (now : Nanos)
  | cancelGcEntry (entryId : Uuid)
  | markGcEntryPurged (entryId : Uuid)

def Call.run (lib : Primitives) (db : Database) : Call → Except MetadataError Database
  | .createNamespace displayName id => Prod.fst <$> Server.createNamespace displayName id db
  | .renameNamespace namespaceId displayName => Prod.fst <$> Server.renameNamespace namespaceId displayName db
  | .recordStorageObject object now => Server.recordStorageObject object now db
  | .replaceObjectEdges owner targets => Server.replaceObjectEdges owner targets db
  | .commitRevision head revision => Prod.fst <$> Server.commitRevision lib head revision db
  | .commitRevisionRoot head epoch revision => Prod.fst <$> Server.commitRevisionRoot lib head epoch revision db
  | .truncateHistory namespaceId head epoch newHead operationId now =>
      Prod.fst <$> Server.truncateHistory namespaceId head epoch newHead operationId now db
  | .restoreHistoryTrash namespaceId operationId head epoch now =>
      Prod.fst <$> Server.restoreHistoryTrash namespaceId operationId head epoch now db
  | .commitHistoryTrashPurge namespaceId expected operationId ids now =>
      Prod.fst <$> Server.commitHistoryTrashPurge namespaceId expected operationId ids now db
  | .enqueueGc fingerprint operationId ids now => Prod.fst <$> Server.enqueueGc lib fingerprint operationId ids now db
  | .completeGcEntry entry now => .ok (Server.completeGcEntry entry now db)
  | .cancelGcEntry entryId => .ok (Server.cancelGcEntry entryId db)
  | .markGcEntryPurged entryId => .ok (Server.markGcEntryPurged entryId db)

-- A call that fails rolls its transaction back.
def step (lib : Primitives) (db : Database) (call : Call) : Database :=
  match call.run lib db with
  | .ok after => after
  | .error _ => db

def runCalls (lib : Primitives) (calls : List Call) : Database := calls.foldl (step lib) Database.initialized

theorem fst_map_ok {ε α β : Type} (result : Except ε (α × β)) (value : α) :
    Prod.fst <$> result = .ok value ↔ ∃ rest, result = .ok (value, rest) := by
  cases result with
  | error reason => exact ⟨nofun, fun ⟨_, impossible⟩ => nomatch impossible⟩
  | ok pair =>
      constructor
      · rintro same
        cases same
        exact ⟨pair.2, rfl⟩
      · rintro ⟨rest, same⟩
        cases same
        rfl

theorem quiet_of_tables (db after : Database) (namespaces : after.namespaces = db.namespaces)
    (revisions : after.revisions = db.revisions) (operations : after.trashOperations = db.trashOperations)
    (roots : after.revisionRoots = db.revisionRoots) : HistoryStep db after :=
  .quiet ⟨fun id => by rw [getHeadState, getHeadState, namespaces], revisions, operations, roots⟩

theorem create_namespace_step (displayName : String) (id result : Uuid) (db after : Database)
    (run : createNamespace displayName id db = .ok (after, result)) : HistoryStep db after := by
  simp only [createNamespace, bind_ok, insert_new_ok] at run
  obtain ⟨name, _, _, ⟨fresh, rfl⟩, done⟩ := run
  cases done
  refine .create id ⟨?_, fun other => head_state_insert db id _ other, rfl, rfl, rfl⟩
  rw [getHeadState, fresh, Option.map_none]

theorem rename_namespace_step (displayName : String) (id result : Uuid) (db after : Database)
    (run : renameNamespace id displayName db = .ok (after, result)) : HistoryStep db after := by
  simp only [renameNamespace, bind_ok, found_ok] at run
  obtain ⟨name, _, row, stored, done⟩ := run
  cases done
  refine .quiet ⟨fun other => ?_, rfl, rfl, rfl⟩
  have kept := head_state_insert db id { row with displayName := name } other
  by_cases same : other = id
  · subst same
    rw [if_pos rfl] at kept
    exact kept.trans (by rw [getHeadState, stored, Option.map_some])
  · rw [if_neg same] at kept
    exact kept

theorem advanced_effect (lib : Primitives) (db after : Database) (revision : NewRevisionMetadata) (normal : RevisionMetadata)
    (current : NamespaceRow) (row : RevisionRow) (read : normalizeRevision lib revision = .ok normal)
    (stored : db.namespaces[revision.namespaceId]? = some current) (parent : normal.parentRevision = current.headRevision)
    (written : revisionRow normal = .ok row) (fresh : db.revisions[revision.id]? = none)
    (namespaces : after.namespaces =
      db.namespaces.insert revision.namespaceId { current with headRevision := some revision.id })
    (revisions : after.revisions = db.revisions.insert revision.id row)
    (operations : after.trashOperations = db.trashOperations)
    (roots : after.revisionRoots = db.revisionRoots ∨
      ∃ schema, after.revisionRoots = db.revisionRoots.insert revision.id ⟨revision.id, schema⟩) :
    CommitEffect db after revision.namespaceId current.headRevision current.namespaceEpoch revision.id row := by
  obtain ⟨_, sameNamespace, _⟩ := normalize_revision_keeps lib revision normal read
  obtain ⟨owner, ancestor, active, untagged⟩ := revision_row_ok normal row written
  refine ⟨?_, fresh, owner.trans sameNamespace, ancestor.trans parent, active, untagged, fun other => ?_, revisions,
    operations, roots⟩
  · rw [getHeadState, stored, Option.map_some]
  · rw [getHeadState, namespaces]
    exact head_state_insert db revision.namespaceId _ other

theorem commit_revision_root_step (lib : Primitives) (expectedHead : Option String) (expectedEpoch : UInt64)
    (revision : NewRevisionMetadata) (db after : Database) (reply : CommitRevisionOutcome × UInt64)
    (run : commitRevisionRoot lib expectedHead expectedEpoch revision db = .ok (after, reply)) : HistoryStep db after := by
  obtain ⟨normal, current, read, stored, _, _, outcome⟩ := commit_revision_root_ok lib _ _ revision db after reply.1 reply.2 run
  rcases outcome with ⟨_, rfl, _⟩ | ⟨_, head, parent, _, _, row, written, fresh, rfl⟩
  · exact quiet_of_tables _ _ rfl rfl rfl rfl
  · exact .commit _ _ _ _ _ (advanced_effect lib db _ revision normal current row read stored (parent.trans head.symm) written fresh
      rfl rfl rfl (.inr ⟨_, rfl⟩))

theorem commit_revision_step (lib : Primitives) (expectedHead : Option String) (revision : NewRevisionMetadata)
    (db after : Database) (outcome : CommitRevisionOutcome)
    (run : commitRevision lib expectedHead revision db = .ok (after, outcome)) : HistoryStep db after := by
  rcases commit_revision_ok lib expectedHead revision db after outcome run with
    ⟨_, rfl⟩ | ⟨normal, current, row, objects, read, stored, parent, written, fresh, rfl⟩
  · exact quiet_of_tables _ _ rfl rfl rfl rfl
  · exact .commit _ _ _ _ _ (advanced_effect lib db _ revision normal current row read stored parent written fresh rfl rfl rfl
      (.inl rfl))

theorem truncate_history_effect (namespaceId : Uuid) (expectedHead : Option String) (expectedEpoch : UInt64)
    (newHead : Option String) (operationId : Uuid) (now : Nanos) (db after : Database) (operation : HistoryTrashOperation)
    (run : truncateHistory namespaceId expectedHead expectedEpoch newHead operationId now db = .ok (after, operation)) :
    after.objectEdges = db.objectEdges ∧ ∃ head epoch removed row,
      TruncateEffect db after namespaceId head newHead epoch removed operationId row := by
  obtain ⟨current, removed, stored, _, _, moves, walk, room, fresh, rfl, rfl⟩ :=
    truncate_history_ok namespaceId expectedHead expectedEpoch newHead operationId now db after operation run
  refine ⟨rfl, current.headRevision, current.namespaceEpoch, removed, _, ?_, moves, walk, fresh, room, rfl, rfl, rfl, rfl,
    fun other => head_state_insert db namespaceId _ other, rfl, rfl, rfl⟩
  rw [getHeadState, stored, Option.map_some]

theorem restore_history_trash_effect (namespaceId operationId : Uuid) (expectedHead : Option String) (expectedEpoch : UInt64)
    (now : Nanos) (db after : Database) (restored : HistoryTrashOperation)
    (run : restoreHistoryTrash namespaceId operationId expectedHead expectedEpoch now db = .ok (after, restored)) :
    after.objectEdges = db.objectEdges ∧ ∃ head epoch operation, now < operation.expiresAt * 1000000 ∧
      RestoreEffect db after namespaceId head epoch operationId operation := by
  obtain ⟨current, operation, stored, _, _, known, owner, active, newEnd, unexpired, room, rfl⟩ :=
    restore_history_trash_ok namespaceId operationId expectedHead expectedEpoch now db after restored run
  refine ⟨rfl, current.headRevision, current.namespaceEpoch, operation, unexpired, ?_, known, owner, active, newEnd, room,
    fun other => head_state_insert db namespaceId _ other, rfl, rfl, rfl⟩
  rw [getHeadState, stored, Option.map_some]

theorem purge_operations_edges (namespaceId : Uuid) (selected : List Uuid) (db : Database) :
    (selected.foldl (purgeOperation namespaceId) db).objectEdges = db.objectEdges := by
  induction selected generalizing db with
  | nil => rfl
  | cons operation rest ih => exact ih (purgeOperation namespaceId db operation)

theorem commit_purge_effect (namespaceId : Uuid) (expected plan : HistoryTrashPurgePlan) (operationId : Uuid) (ids : Nat → Uuid)
    (now : Nanos) (db after : Database) (entries : List GcQueueEntry)
    (run : commitHistoryTrashPurge namespaceId expected operationId ids now db = .ok (after, plan, entries)) :
    after.objectEdges = db.objectEdges ∧ PurgeEffect db after namespaceId plan.operationIds := by
  obtain ⟨built, _, enqueued⟩ := commit_purge_ok namespaceId expected plan operationId ids now db after entries run
  obtain ⟨listed, independent⟩ := build_purge_plan_ok namespaceId expected.operationIds db plan built
  simp only [enqueueGcObjectsForPurge, bind_ok] at enqueued
  obtain ⟨_, _, enqueued⟩ := enqueued
  have quiet := enqueue_objects_quiet _ _ _ _ _ _ _ enqueued
  refine ⟨?_, listed, independent, fun id => ?_, ?_, ?_, ?_⟩
  · rw [quiet]
    exact purge_operations_edges namespaceId plan.operationIds db
  · rw [getHeadState, quiet, getHeadState, purge_operations_heads]
  · rw [quiet]
  · rw [quiet]
  · rw [quiet]

theorem enqueue_gc_quiet (lib : Primitives) (fingerprint : String) (operationId result : Uuid) (ids : Nat → Uuid) (now : Nanos)
    (db after : Database) (entries : List GcQueueEntry)
    (run : enqueueGc lib fingerprint operationId ids now db = .ok (after, result, entries)) :
    after = { db with gcQueue := after.gcQueue } := by
  simp only [enqueueGc, bind_ok] at run
  obtain ⟨_, _, _, _, ⟨next, queued⟩, enqueued, done⟩ := run
  cases done
  exact enqueue_objects_quiet _ _ _ _ _ _ _ enqueued

theorem call_step (lib : Primitives) (db after : Database) (call : Call) (run : call.run lib db = .ok after) :
    HistoryStep db after := by
  cases call with
  | createNamespace displayName id =>
      obtain ⟨result, run⟩ := (fst_map_ok _ _).mp run
      exact create_namespace_step displayName id result db after run
  | renameNamespace namespaceId displayName =>
      obtain ⟨result, run⟩ := (fst_map_ok _ _).mp run
      exact rename_namespace_step displayName namespaceId result db after run
  | recordStorageObject object now =>
      simp only [Call.run, recordStorageObject, bind_ok] at run
      obtain ⟨_, _, run⟩ := run
      split at run
      · cases run
        exact quiet_of_tables _ _ rfl rfl rfl rfl
      · cases run
        exact quiet_of_tables _ _ rfl rfl rfl rfl
  | replaceObjectEdges owner targets =>
      simp only [Call.run, replaceObjectEdges, bind_ok] at run
      obtain ⟨_, _, done⟩ := run
      cases done
      exact quiet_of_tables _ _ rfl rfl rfl rfl
  | commitRevision head revision =>
      obtain ⟨outcome, run⟩ := (fst_map_ok _ _).mp run
      exact commit_revision_step lib head revision db after outcome run
  | commitRevisionRoot head epoch revision =>
      obtain ⟨reply, run⟩ := (fst_map_ok _ _).mp run
      exact commit_revision_root_step lib head epoch revision db after reply run
  | truncateHistory namespaceId head epoch newHead operationId now =>
      obtain ⟨operation, run⟩ := (fst_map_ok _ _).mp run
      obtain ⟨_, _, _, _, _, effect⟩ := truncate_history_effect namespaceId head epoch newHead operationId now db after operation run
      exact .truncate _ _ _ _ _ _ _ effect
  | restoreHistoryTrash namespaceId operationId head epoch now =>
      obtain ⟨restored, run⟩ := (fst_map_ok _ _).mp run
      obtain ⟨_, _, _, _, _, effect⟩ := restore_history_trash_effect namespaceId operationId head epoch now db after restored run
      exact .restore _ _ _ _ _ effect
  | commitHistoryTrashPurge namespaceId expected operationId ids now =>
      obtain ⟨⟨plan, entries⟩, run⟩ := (fst_map_ok _ _).mp run
      exact .purge _ _ (commit_purge_effect namespaceId expected plan operationId ids now db after entries run).2
  | enqueueGc fingerprint operationId ids now =>
      obtain ⟨⟨result, entries⟩, run⟩ := (fst_map_ok _ _).mp run
      rw [enqueue_gc_quiet lib fingerprint operationId result ids now db after entries run]
      exact quiet_of_tables _ _ rfl rfl rfl rfl
  | completeGcEntry entry now =>
      cases run
      exact quiet_of_tables _ _ rfl rfl rfl rfl
  | cancelGcEntry entryId =>
      cases run
      exact quiet_of_tables _ _ rfl rfl rfl rfl
  | markGcEntryPurged entryId =>
      cases run
      exact quiet_of_tables _ _ rfl rfl rfl rfl

-- Whatever the calls were, a run moves the history tables by history steps only.
theorem run_invariant (lib : Primitives) (holds : Database → Prop) (start : holds Database.initialized)
    (kept : ∀ db after, HistoryStep db after → holds db → holds after) (calls : List Call) : holds (runCalls lib calls) := by
  suffices general : ∀ db, holds db → holds (calls.foldl (step lib) db) from general _ start
  induction calls with
  | nil => exact fun db inv => inv
  | cons call rest ih =>
      intro db inv
      refine ih (step lib db call) ?_
      unfold step
      cases run : call.run lib db with
      | error reason => exact inv
      | ok after => exact kept db after (call_step lib db after call run) inv

end SessionSync.Server
