import SessionSync.Server.Purge
import SessionSync.Lib.Chain

set_option autoImplicit false

namespace SessionSync.Server

open SessionSync.Core Checked

def getHeadState (db : Database) (namespaceId : Uuid) : Option (Option String × UInt64) :=
  db.namespaces[namespaceId]?.map fun row => (row.headRevision, row.namespaceEpoch)

-- What a successful call does to the history tables, table by table, one structure
-- a call. The guards of the call that the invariants need stand beside its effect.
structure QuietEffect (db after : Database) : Prop where
  heads : ∀ id, getHeadState after id = getHeadState db id
  revisions : after.revisions = db.revisions
  operations : after.trashOperations = db.trashOperations
  roots : after.revisionRoots = db.revisionRoots

structure CreateEffect (db after : Database) (id : Uuid) : Prop where
  fresh : getHeadState db id = none
  heads : ∀ other, getHeadState after other = if other = id then some (none, 0) else getHeadState db other
  revisions : after.revisions = db.revisions
  operations : after.trashOperations = db.trashOperations
  roots : after.revisionRoots = db.revisionRoots

structure CommitEffect (db after : Database) (namespaceId : Uuid) (head : Option String) (epoch : UInt64) (id : String)
    (row : RevisionRow) : Prop where
  current : getHeadState db namespaceId = some (head, epoch)
  fresh : db.revisions[id]? = none
  owner : row.namespaceId = namespaceId
  parent : row.parentRevision = head
  active : row.state = .active
  untagged : row.trashOperationId = none
  heads : ∀ other, getHeadState after other = if other = namespaceId then some (some id, epoch) else getHeadState db other
  revisions : after.revisions = db.revisions.insert id row
  operations : after.trashOperations = db.trashOperations
  roots : after.revisionRoots = db.revisionRoots ∨ ∃ schema, after.revisionRoots = db.revisionRoots.insert id ⟨id, schema⟩

structure TruncateEffect (db after : Database) (namespaceId : Uuid) (head newHead : Option String) (epoch : UInt64)
    (removed : List String) (operationId : Uuid) (operation : TrashOperationRow) : Prop where
  current : getHeadState db namespaceId = some (head, epoch)
  moves : head ≠ newHead
  walk : collectRemoved db namespaceId newHead historyDepth head = .ok removed
  fresh : db.trashOperations[operationId]? = none
  room : epoch.toNat + 1 < 2 ^ 64
  owner : operation.namespaceId = namespaceId
  oldEnd : operation.oldHead = head
  newEnd : operation.newHead = newHead
  active : operation.state = .active
  heads : ∀ other, getHeadState after other = if other = namespaceId then some (newHead, epoch + 1) else getHeadState db other
  revisions : after.revisions = removed.foldl (trashRevision operationId) db.revisions
  operations : after.trashOperations = db.trashOperations.insert operationId operation
  roots : after.revisionRoots = db.revisionRoots

structure RestoreEffect (db after : Database) (namespaceId : Uuid) (head : Option String) (epoch : UInt64) (operationId : Uuid)
    (operation : TrashOperationRow) : Prop where
  current : getHeadState db namespaceId = some (head, epoch)
  stored : db.trashOperations[operationId]? = some operation
  owner : operation.namespaceId = namespaceId
  active : operation.state = .active
  newEnd : operation.newHead = head
  room : epoch.toNat + 1 < 2 ^ 64
  heads : ∀ other, getHeadState after other =
    if other = namespaceId then some (operation.oldHead, epoch + 1) else getHeadState db other
  revisions : after.revisions = db.revisions.map fun _ row => reactivate operationId row
  operations : after.trashOperations = db.trashOperations.insert operationId { operation with state := .restored }
  roots : after.revisionRoots = db.revisionRoots

structure PurgeEffect (db after : Database) (namespaceId : Uuid) (selected : List Uuid) : Prop where
  listed : ∀ operation ∈ selected, operation ∈ (activeOperations db namespaceId).map Prod.fst
  independent : ∀ operation ∈ activeOperations db namespaceId, operation.1 ∉ selected →
    ∀ head ∈ operation.2.newHead, head ∉ selectedRevisions db namespaceId selected
  heads : ∀ id, getHeadState after id = getHeadState db id
  revisions : after.revisions = (selected.foldl (purgeOperation namespaceId) db).revisions
  operations : after.trashOperations = (selected.foldl (purgeOperation namespaceId) db).trashOperations
  roots : after.revisionRoots = (selected.foldl (purgeOperation namespaceId) db).revisionRoots

inductive HistoryStep (db after : Database) : Prop where
  | quiet (effect : QuietEffect db after)
  | create (id : Uuid) (effect : CreateEffect db after id)
  | commit (namespaceId : Uuid) (head : Option String) (epoch : UInt64) (id : String) (row : RevisionRow)
      (effect : CommitEffect db after namespaceId head epoch id row)
  | truncate (namespaceId : Uuid) (head newHead : Option String) (epoch : UInt64) (removed : List String) (operationId : Uuid)
      (operation : TrashOperationRow) (effect : TruncateEffect db after namespaceId head newHead epoch removed operationId operation)
  | restore (namespaceId : Uuid) (head : Option String) (epoch : UInt64) (operationId : Uuid) (operation : TrashOperationRow)
      (effect : RestoreEffect db after namespaceId head epoch operationId operation)
  | purge (namespaceId : Uuid) (selected : List Uuid) (effect : PurgeEffect db after namespaceId selected)

theorem insert_new_ok {κ α : Type} [Ord κ] [Std.TransOrd κ] [Std.LawfulEqOrd κ] (table result : Std.ExtTreeMap κ α)
    (key : κ) (row : α) :
    insertNew table key row = .ok result ↔ table[key]? = none ∧ result = table.insert key row := by
  unfold insertNew
  cases stored : table[key]? with
  | none =>
      have absent : table.contains key = false := by
        rw [Std.ExtTreeMap.contains_eq_isSome_getElem?, stored, Option.isSome_none]
      simp only [absent, Bool.false_eq_true, if_false, Except.ok.injEq, eq_comm, true_and]
  | some old =>
      have present : table.contains key = true := by
        rw [Std.ExtTreeMap.contains_eq_isSome_getElem?, stored, Option.isSome_some]
      simp only [present, if_true, reduceCtorEq, false_and]

theorem head_state_insert (db : Database) (id : Uuid) (row : NamespaceRow) (other : Uuid) :
    (db.namespaces.insert id row)[other]?.map (fun row => (row.headRevision, row.namespaceEpoch)) =
      if other = id then some (row.headRevision, row.namespaceEpoch) else getHeadState db other := by
  rw [Keyed.lookup_insert]
  by_cases same : other = id
  · rw [if_pos same, if_pos same, Option.map_some]
  · rw [if_neg same, if_neg same, getHeadState]

theorem next_epoch_ok (epoch next : UInt64) : nextEpoch epoch = .ok next ↔ epoch.toNat + 1 < 2 ^ 64 ∧ next = epoch + 1 := by
  unfold nextEpoch
  by_cases room : epoch.toNat + 1 < 2 ^ 64
  · rw [if_pos room, Except.ok.injEq, and_iff_right room, eq_comm]
  · rw [if_neg room]
    exact iff_of_false nofun fun both => room both.1

theorem normalize_revision_keeps (lib : Primitives) (revision : NewRevisionMetadata) (normal : RevisionMetadata)
    (run : normalizeRevision lib revision = .ok normal) :
    normal.id = revision.id ∧ normal.namespaceId = revision.namespaceId ∧ normal.parentRevision = revision.parentRevision := by
  simp only [normalizeRevision, bind_ok] at run
  obtain ⟨_, _, _, _, _, _, _, _, _, _, _, _, done⟩ := run
  cases done
  exact ⟨rfl, rfl, rfl⟩

theorem revision_row_ok (revision : RevisionMetadata) (row : RevisionRow) (run : revisionRow revision = .ok row) :
    row.namespaceId = revision.namespaceId ∧ row.parentRevision = revision.parentRevision ∧ row.state = .active ∧
      row.trashOperationId = none := by
  simp only [revisionRow, bind_ok] at run
  obtain ⟨_, _, _, _, _, _, _, _, done⟩ := run
  cases done
  exact ⟨rfl, rfl, rfl, rfl⟩

theorem advance_head_ok (db after : Database) (current : NamespaceRow) (revision : RevisionMetadata) :
    advanceHead db current revision = .ok after ↔ ∃ row, revisionRow revision = .ok row ∧ db.revisions[revision.id]? = none ∧
      after = { db with
        revisions := db.revisions.insert revision.id row
        namespaces := db.namespaces.insert revision.namespaceId { current with headRevision := some revision.id } } := by
  simp only [advanceHead, bind_ok, insert_new_ok, pure, Except.pure, Except.ok.injEq]
  constructor
  · rintro ⟨row, read, _, ⟨fresh, rfl⟩, rfl⟩
    exact ⟨row, read, fresh, rfl⟩
  · rintro ⟨row, read, fresh, rfl⟩
    exact ⟨row, read, _, ⟨fresh, rfl⟩, rfl⟩

theorem commit_revision_root_ok (lib : Primitives) (expectedHead : Option String) (expectedEpoch : UInt64)
    (revision : NewRevisionMetadata) (db after : Database) (outcome : CommitRevisionOutcome) (epoch : UInt64)
    (run : commitRevisionRoot lib expectedHead expectedEpoch revision db = .ok (after, outcome, epoch)) :
    ∃ normal current, normalizeRevision lib revision = .ok normal ∧ db.namespaces[revision.namespaceId]? = some current ∧
      current.namespaceEpoch = expectedEpoch ∧ epoch = expectedEpoch ∧
      ((outcome = .alreadyCommitted ∧ after = db ∧ readRevision db revision.id = some normal ∧
          current.headRevision = some revision.id) ∨
        (outcome = .created ∧ current.headRevision = expectedHead ∧ normal.parentRevision = expectedHead ∧
          parentInNamespace db normal ∧ db.revisionRoots[revision.id]? = none ∧
          ∃ row, revisionRow normal = .ok row ∧ db.revisions[revision.id]? = none ∧
            after = { db with
              revisions := db.revisions.insert revision.id row
              namespaces := db.namespaces.insert revision.namespaceId { current with headRevision := some revision.id }
              revisionRoots := db.revisionRoots.insert revision.id ⟨revision.id, normal.rootSchemaVersion⟩ })) := by
  simp only [commitRevisionRoot, bind_ok, found_ok, ensure_ok] at run
  obtain ⟨normal, read, current, row, _, epochs, run⟩ := run
  obtain ⟨sameId, sameNamespace, _⟩ := normalize_revision_keeps lib revision normal read
  rw [sameNamespace] at row
  refine ⟨normal, current, read, row, epochs, ?_⟩
  rw [sameId] at run
  cases existing : readRevision db revision.id with
  | some found =>
      simp only [existing, bind_ok, ensure_ok] at run
      obtain ⟨_, same, _, head, done⟩ := run
      cases done
      exact ⟨epochs, .inl ⟨rfl, rfl, by rw [same], head⟩⟩
  | none =>
      simp only [existing, bind_ok, ensure_ok, insert_new_ok, advance_head_ok] at run
      obtain ⟨_, head, _, parent, _, known, _, ⟨inserted, written, fresh, rfl⟩, _, ⟨absent, rfl⟩, done⟩ := run
      cases done
      rw [sameId] at fresh
      refine ⟨epochs, .inr ⟨rfl, head, parent, known, absent, inserted, written, fresh, ?_⟩⟩
      rw [sameId, sameNamespace]

theorem commit_revision_ok (lib : Primitives) (expectedHead : Option String) (revision : NewRevisionMetadata)
    (db after : Database) (outcome : CommitRevisionOutcome)
    (run : commitRevision lib expectedHead revision db = .ok (after, outcome)) :
    (outcome = .alreadyCommitted ∧ after = db) ∨
      ∃ normal current row objects, normalizeRevision lib revision = .ok normal ∧
        db.namespaces[revision.namespaceId]? = some current ∧ normal.parentRevision = current.headRevision ∧
        revisionRow normal = .ok row ∧ db.revisions[revision.id]? = none ∧
        after = { db with
          revisions := db.revisions.insert revision.id row
          namespaces := db.namespaces.insert revision.namespaceId { current with headRevision := some revision.id }
          revisionObjects := objects } := by
  simp only [commitRevision, bind_ok, found_ok] at run
  obtain ⟨normal, read, current, row, run⟩ := run
  obtain ⟨sameId, sameNamespace, _⟩ := normalize_revision_keeps lib revision normal read
  rw [sameNamespace] at row
  rw [sameId] at run
  cases existing : readRevision db revision.id with
  | some found =>
      simp only [existing, bind_ok, ensure_ok] at run
      obtain ⟨_, _, run⟩ := run
      split at run
      · cases run
        exact .inl ⟨rfl, rfl⟩
      · simp only [bind_ok] at run
        obtain ⟨_, _, impossible⟩ := run
        cases impossible
  | none =>
      simp only [existing, bind_ok, ensure_ok, advance_head_ok] at run
      obtain ⟨_, head, _, parent, _, _, _, ⟨inserted, written, fresh, rfl⟩, objects, _, done⟩ := run
      cases done
      rw [sameId] at fresh
      refine .inr ⟨normal, current, inserted, objects, read, row, parent.trans head.symm, written, fresh, ?_⟩
      rw [sameId, sameNamespace]

theorem truncate_history_ok (namespaceId : Uuid) (expectedHead : Option String) (expectedEpoch : UInt64) (newHead : Option String)
    (operationId : Uuid) (now : Nanos) (db after : Database) (operation : HistoryTrashOperation)
    (run : truncateHistory namespaceId expectedHead expectedEpoch newHead operationId now db = .ok (after, operation)) :
    ∃ current removed, db.namespaces[namespaceId]? = some current ∧ current.headRevision = expectedHead ∧
      current.namespaceEpoch = expectedEpoch ∧ current.headRevision ≠ newHead ∧
      collectRemoved db namespaceId newHead historyDepth current.headRevision = .ok removed ∧
      current.namespaceEpoch.toNat + 1 < 2 ^ 64 ∧ db.trashOperations[operationId]? = none ∧
      operation = { operationId := operationId, row := {
        namespaceId := namespaceId, oldHead := current.headRevision, newHead := newHead
        epochBefore := current.namespaceEpoch, epochAfter := current.namespaceEpoch + 1
        createdAt := millis now, expiresAt := millis (now + thirtyDays), revisionCount := removed.length, state := .active } } ∧
      after = { db with
        revisions := removed.foldl (trashRevision operationId) db.revisions
        trashOperations := db.trashOperations.insert operationId operation.row
        namespaces := db.namespaces.insert namespaceId
          { current with headRevision := newHead, namespaceEpoch := current.namespaceEpoch + 1 } } := by
  simp only [truncateHistory, bind_ok, found_ok, ensure_ok, next_epoch_ok, insert_new_ok] at run
  obtain ⟨current, row, _, head, _, epoch, _, moves, removed, walk, _, ⟨room, rfl⟩, _, ⟨fresh, rfl⟩, done⟩ := run
  cases done
  exact ⟨current, removed, row, head, epoch, moves, walk, room, fresh, rfl, rfl⟩

theorem restore_history_trash_ok (namespaceId operationId : Uuid) (expectedHead : Option String) (expectedEpoch : UInt64)
    (now : Nanos) (db after : Database) (restored : HistoryTrashOperation)
    (run : restoreHistoryTrash namespaceId operationId expectedHead expectedEpoch now db = .ok (after, restored)) :
    ∃ current operation, db.namespaces[namespaceId]? = some current ∧ current.headRevision = expectedHead ∧
      current.namespaceEpoch = expectedEpoch ∧ db.trashOperations[operationId]? = some operation ∧
      operation.namespaceId = namespaceId ∧ operation.state = .active ∧ operation.newHead = current.headRevision ∧
      now < operation.expiresAt * 1000000 ∧ current.namespaceEpoch.toNat + 1 < 2 ^ 64 ∧
      after = { db with
        revisions := db.revisions.map fun _ row => reactivate operationId row
        namespaces := db.namespaces.insert namespaceId
          { current with headRevision := operation.oldHead, namespaceEpoch := current.namespaceEpoch + 1 }
        trashOperations := db.trashOperations.insert operationId { operation with state := .restored } } := by
  simp only [restoreHistoryTrash, bind_ok, found_ok, ensure_ok, next_epoch_ok, Option.filter_eq_some_iff, decide_eq_true_eq] at run
  obtain ⟨current, row, _, head, _, rfl, operation, ⟨stored, owner⟩, _, ⟨active, newEnd, unexpired⟩, _, ⟨room, rfl⟩, done⟩ := run
  cases done
  exact ⟨current, operation, row, head, rfl, stored, owner, active, newEnd, unexpired, room, rfl⟩

theorem build_purge_plan_ok (namespaceId : Uuid) (requested : List Uuid) (db : Database) (plan : HistoryTrashPurgePlan)
    (run : buildHistoryTrashPurgePlan namespaceId requested false db = .ok plan) :
    (∀ operation ∈ plan.operationIds, operation ∈ (activeOperations db namespaceId).map Prod.fst) ∧
      ∀ operation ∈ activeOperations db namespaceId, operation.1 ∉ plan.operationIds →
        ∀ head ∈ operation.2.newHead, head ∉ selectedRevisions db namespaceId plan.operationIds := by
  simp only [buildHistoryTrashPurgePlan, bind_ok, ensure_ok, Bool.false_eq_true, false_or, if_false] at run
  obtain ⟨_, _, _, _, _, _, _, _, _, listed, _, _, _, independent, done⟩ := run
  cases done
  exact ⟨fun operation member => listed operation ((Keyed.mem_sorted_keys requested operation).mp member), independent⟩

theorem enqueue_objects_quiet (operationId : Uuid) (purge : Bool) (createdAt : Millis) (objects : List (Uuid × StorageObjectRef))
    (db after : Database) (entries : List GcQueueEntry)
    (run : enqueueObjects operationId purge createdAt objects db = .ok (after, entries)) :
    after = { db with gcQueue := after.gcQueue } := by
  induction objects generalizing db entries with
  | nil =>
      cases run
      rfl
  | cons object rest ih =>
      simp only [enqueueObjects, bind_ok] at run
      obtain ⟨_, _, queue, _, ⟨next, later⟩, tail, done⟩ := run
      cases done
      have kept := ih _ _ tail
      exact kept

theorem commit_purge_ok (namespaceId : Uuid) (expected plan : HistoryTrashPurgePlan) (operationId : Uuid) (ids : Nat → Uuid)
    (now : Nanos) (db after : Database) (entries : List GcQueueEntry)
    (run : commitHistoryTrashPurge namespaceId expected operationId ids now db = .ok (after, plan, entries)) :
    buildHistoryTrashPurgePlan namespaceId expected.operationIds false db = .ok plan ∧ plan = expected ∧
      enqueueGcObjectsForPurge operationId ids now plan.candidateObjects
        (plan.operationIds.foldl (purgeOperation namespaceId) db) = .ok (after, entries) := by
  simp only [commitHistoryTrashPurge, bind_ok, ensure_ok] at run
  obtain ⟨current, built, _, same, ⟨next, queued⟩, enqueued, done⟩ := run
  cases done
  exact ⟨built, same, enqueued⟩

theorem purge_operations_heads (namespaceId : Uuid) (selected : List Uuid) (db : Database) :
    (selected.foldl (purgeOperation namespaceId) db).namespaces = db.namespaces := by
  induction selected generalizing db with
  | nil => rfl
  | cons operation rest ih => exact ih (purgeOperation namespaceId db operation)

end SessionSync.Server
