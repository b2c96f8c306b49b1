import SessionSync.Server.HistoryPurge

set_option autoImplicit false

namespace SessionSync.Server

open SessionSync.Core Checked Chain

theorem head_chain_exact (lib : Primitives) (calls : List Call) (namespaceId : Uuid) :
    match getHeadState (runCalls lib calls) namespaceId with
    | none => ∀ id, ¬ ActiveIn (runCalls lib calls) namespaceId id
    | some (head, _) => ∃ path, Path (parentOf (runCalls lib calls)) head path none ∧
        ∀ id, id ∈ path ↔ ActiveIn (runCalls lib calls) namespaceId id := by
  have inv := run_inv lib calls
  cases current : getHeadState (runCalls lib calls) namespaceId with
  | none =>
      rintro id ⟨row, stored, rfl, _⟩
      obtain ⟨state, known⟩ := inv.owned id row stored
      rw [current] at known
      cases known
  | some state => exact inv.chain namespaceId state.1 state.2 current

-- What is left of a truncation once its own operation has been restored.
structure Undone (db cut back : Database) (namespaceId operationId : Uuid) : Prop where
  heads : ∀ other, getHeadState back other =
    (getHeadState db other).map fun state => if other = namespaceId then (state.1, state.2 + 2) else state
  room : ∀ state ∈ getHeadState db namespaceId, state.2.toNat + 2 < 2 ^ 64
  revisions : back.revisions = db.revisions
  roots : back.revisionRoots = db.revisionRoots
  trashed : ∀ id, Tagged cut operationId id ↔ ActiveIn db namespaceId id ∧ ¬ ActiveIn cut namespaceId id
  reactivated : ∀ id, Tagged cut operationId id ↔ ActiveIn back namespaceId id ∧ ¬ ActiveIn cut namespaceId id

-- The restoring call names the head and epoch that the truncation left behind.
def restoreAfter (operation : HistoryTrashOperation) (now : Nanos) (cut : Database) :
    Except MetadataError (Database × HistoryTrashOperation) :=
  restoreHistoryTrash operation.row.namespaceId operation.operationId operation.row.newHead operation.row.epochAfter now cut

def HeadsUnpurged (db : Database) : Prop :=
  ∀ (operationId : Uuid) (operation : TrashOperationRow), db.trashOperations[operationId]? = some operation →
    operation.state = .active →
    ∃ path, Path (parentOf db) operation.oldHead path none ∧ ∀ id ∈ path, Unpurged db operation.namespaceId id

section Undo

variable (db cut : Database) (namespaceId : Uuid) (head newHead : Option String) (epoch : UInt64) (removed : List String)
  (operationId : Uuid) (operation : TrashOperationRow) (inv : HistoryInv db)
  (effect : TruncateEffect db cut namespaceId head newHead epoch removed operationId operation)

include inv effect

-- Reactivation takes back what truncation wrote: a removed row was active and untagged.
theorem undo_row (id : String) (row : RevisionRow) (stored : db.revisions[id]? = some row) :
    reactivate operationId (truncateRow removed operationId id row) = row := by
  by_cases member : id ∈ removed
  · obtain ⟨live, other, _, active⟩ :=
      (truncate_walk db cut namespaceId head newHead epoch removed operationId operation effect).2 id member
    rw [stored] at other
    cases other
    rw [(truncate_row_inside db cut namespaceId head newHead epoch removed operationId operation effect id row stored member).2,
      reactivate_tagged operationId _ rfl, ← (inv.untagged id row stored).mp active, ← active]
  · rw [truncate_row_outside removed operationId id row member]
    apply reactivate_other
    intro tag
    exact truncate_unused db cut namespaceId head newHead epoch removed operationId operation inv effect id ⟨row, stored, tag⟩

theorem undo_revisions : (cut.revisions.map fun _ row => reactivate operationId row) = db.revisions := by
  apply Std.ExtTreeMap.ext_getElem?
  intro id
  rw [Std.ExtTreeMap.getElem?_map,
    truncate_lookup db cut namespaceId head newHead epoch removed operationId operation effect, Option.map_map]
  cases stored : db.revisions[id]? with
  | none => rfl
  | some row =>
      exact congrArg some (undo_row db cut namespaceId head newHead epoch removed operationId operation inv effect id row stored)

theorem undo_trashed (id : String) :
    Tagged cut operationId id ↔ ActiveIn db namespaceId id ∧ ¬ ActiveIn cut namespaceId id := by
  have live := (truncate_walk db cut namespaceId head newHead epoch removed operationId operation effect).2 id
  rw [truncate_tags db cut namespaceId head newHead epoch removed operationId operation inv effect, and_iff_right rfl,
    or_iff_left (truncate_unused db cut namespaceId head newHead epoch removed operationId operation inv effect id),
    truncate_active db cut namespaceId head newHead epoch removed operationId operation effect]
  constructor
  · intro member
    exact ⟨live member, fun both => both.2 member⟩
  · intro ⟨active, gone⟩
    by_contra outside
    exact gone ⟨active, outside⟩

theorem undone_of_effects (back : Database)
    (again : RestoreEffect cut back namespaceId newHead (epoch + 1) operationId operation) :
    Undone db cut back namespaceId operationId := by
  have trashed := undo_trashed db cut namespaceId head newHead epoch removed operationId operation inv effect
  have revisions : back.revisions = db.revisions := by
    rw [again.revisions]
    exact undo_revisions db cut namespaceId head newHead epoch removed operationId operation inv effect
  refine ⟨fun other => ?_, fun state held => ?_, revisions, again.roots.trans effect.roots, trashed, fun id => ?_⟩
  · rw [again.heads, effect.heads]
    by_cases same : other = namespaceId
    · rw [if_pos same, same, effect.current, effect.oldEnd, Option.map_some, if_pos rfl, UInt64.add_assoc]
      rfl
    · simp only [same, if_false, Option.map_id']
  · rw [effect.current] at held
    cases held
    have next : (epoch + 1).toNat = epoch.toNat + 1 := by
      rw [UInt64.toNat_add, UInt64.toNat_one, Nat.mod_eq_of_lt effect.room]
    have spare := again.room
    rw [next] at spare
    exact spare
  · have same : ActiveIn back namespaceId id ↔ ActiveIn db namespaceId id := by rw [ActiveIn, revisions, ActiveIn]
    rw [trashed, same]

end Undo

-- Every check of the call holds, so only the clock and the epoch can refuse it.
theorem restore_history_trash_runs (namespaceId operationId : Uuid) (now : Nanos) (db : Database) (current : NamespaceRow)
    (operation : TrashOperationRow) (row : db.namespaces[namespaceId]? = some current)
    (stored : db.trashOperations[operationId]? = some operation) (owner : operation.namespaceId = namespaceId)
    (active : operation.state = .active) (newEnd : operation.newHead = current.headRevision)
    (unexpired : now < operation.expiresAt * 1000000) (room : current.namespaceEpoch.toNat + 1 < 2 ^ 64) :
    ∃ done, restoreHistoryTrash namespaceId operationId current.headRevision current.namespaceEpoch now db = .ok done := by
  have kept : db.trashOperations[operationId]?.filter (fun row => row.namespaceId = namespaceId) = some operation := by
    rw [stored, Option.filter_some, if_pos (decide_eq_true owner)]
  have next := (next_epoch_ok current.namespaceEpoch _).mpr ⟨room, rfl⟩
  unfold restoreHistoryTrash
  rw [row, present, ensured _ _ _ rfl, ensured _ _ _ rfl, kept, present, ensured _ _ _ ⟨active, newEnd, unexpired⟩, next]
  exact ⟨_, rfl⟩

theorem restore_after_truncate (lib : Primitives) (calls : List Call) (namespaceId : Uuid) (expectedHead newHead : Option String)
    (expectedEpoch : UInt64) (operationId : Uuid) (now later : Nanos) (cut : Database) (operation : HistoryTrashOperation)
    (run : truncateHistory namespaceId expectedHead expectedEpoch newHead operationId now (runCalls lib calls) =
      .ok (cut, operation)) :
    match restoreAfter operation later cut with
    | .error _ => operation.row.expiresAt * 1000000 ≤ later ∨ 2 ^ 64 ≤ expectedEpoch.toNat + 2
    | .ok (back, _) => Undone (runCalls lib calls) cut back namespaceId operationId := by
  have inv := run_inv lib calls
  generalize runCalls lib calls = db at inv run ⊢
  obtain ⟨current, removed, row, rfl, rfl, moves, walk, room, fresh, same, changed⟩ :=
    truncate_history_ok namespaceId expectedHead expectedEpoch newHead operationId now db cut operation run
  have effect : TruncateEffect db cut namespaceId current.headRevision newHead current.namespaceEpoch removed operationId
      operation.row := by
    subst same changed
    refine ⟨?_, moves, walk, fresh, room, rfl, rfl, rfl, rfl, fun other => head_state_insert db namespaceId _ other, rfl, rfl, rfl⟩
    rw [getHeadState, row, Option.map_some]
  have next : (current.namespaceEpoch + 1).toNat = current.namespaceEpoch.toNat + 1 := by
    rw [UInt64.toNat_add, UInt64.toNat_one, Nat.mod_eq_of_lt room]
  have rowCut : cut.namespaces[namespaceId]? =
      some { current with headRevision := newHead, namespaceEpoch := current.namespaceEpoch + 1 } := by
    rw [changed, Keyed.lookup_insert, if_pos rfl]
  have storedCut : cut.trashOperations[operationId]? = some operation.row := by
    rw [effect.operations, Keyed.lookup_insert, if_pos rfl]
  have named : restoreAfter operation later cut =
      restoreHistoryTrash namespaceId operationId newHead (current.namespaceEpoch + 1) later cut := by
    rw [restoreAfter, effect.owner, effect.newEnd, same]
  rw [named]
  cases outcome : restoreHistoryTrash namespaceId operationId newHead (current.namespaceEpoch + 1) later cut with
  | error reason =>
      by_contra neither
      obtain ⟨unexpired, spare⟩ := not_or.mp neither
      have room : (current.namespaceEpoch + 1).toNat + 1 < 2 ^ 64 := by omega
      obtain ⟨done, restored⟩ := restore_history_trash_runs namespaceId operationId later cut _ operation.row rowCut storedCut
        effect.owner effect.active effect.newEnd (not_le.mp unexpired) room
      rw [restored] at outcome
      cases outcome
  | ok reply =>
      obtain ⟨held, known, rowHeld, _, heldEpoch, stored, owner, active, newEnd, _, spare, done⟩ :=
        restore_history_trash_ok namespaceId operationId newHead (current.namespaceEpoch + 1) later cut reply.1 reply.2 outcome
      rw [rowCut] at rowHeld
      cases rowHeld
      rw [storedCut] at stored
      cases stored
      have back : RestoreEffect cut reply.1 namespaceId newHead (current.namespaceEpoch + 1) operationId operation.row := by
        rw [done]
        refine ⟨?_, storedCut, owner, active, newEnd, spare, fun other => head_state_insert cut namespaceId _ other, rfl, rfl, rfl⟩
        rw [getHeadState, rowCut, Option.map_some]
      exact undone_of_effects db cut namespaceId current.headRevision newHead current.namespaceEpoch removed operationId
        operation.row inv effect reply.1 back

theorem truncation_undone (lib : Primitives) (calls : List Call) (namespaceId : Uuid) (expectedHead newHead : Option String)
    (expectedEpoch : UInt64) (operationId : Uuid) (now later : Nanos) :
    (match truncateHistory namespaceId expectedHead expectedEpoch newHead operationId now (runCalls lib calls) with
      | .error _ => True
      | .ok (cut, operation) =>
          match restoreAfter operation later cut with
          | .error _ => operation.row.expiresAt * 1000000 ≤ later ∨ 2 ^ 64 ≤ expectedEpoch.toNat + 2
          | .ok (back, _) => Undone (runCalls lib calls) cut back namespaceId operationId) ∧
      HeadsUnpurged (runCalls lib calls) := by
  refine ⟨?_, (run_inv lib calls).ancestry⟩
  cases run : truncateHistory namespaceId expectedHead expectedEpoch newHead operationId now (runCalls lib calls) with
  | error reason => trivial
  | ok reply =>
      exact restore_after_truncate lib calls namespaceId expectedHead newHead expectedEpoch operationId now later reply.1 reply.2 run

end SessionSync.Server
