import SessionSync.Server.HistoryPurge

set_option autoImplicit false

namespace SessionSync.Server

open SessionSync.Core Checked Chain

def epochOf (db : Database) (namespaceId : Uuid) : Option UInt64 := db.namespaces[namespaceId]?.map (·.namespaceEpoch)

-- The namespace whose history the call rewrites.
def Call.rewrites : Call → Option Uuid
  | .truncateHistory namespaceId _ _ _ _ _ => some namespaceId
  | .restoreHistoryTrash namespaceId _ _ _ _ => some namespaceId
  | _ => none

-- The next epoch of a namespace, given the one whose history the call rewrites.
def EpochMove (rewritten : Option Uuid) (db after : Database) : Prop :=
  ∀ namespaceId epoch, epochOf db namespaceId = some epoch → ∃ later, epochOf after namespaceId = some later ∧
    later.toNat = if rewritten = some namespaceId then epoch.toNat + 1 else epoch.toNat

theorem epoch_insert (db : Database) (id : Uuid) (row : NamespaceRow) (other : Uuid) :
    (db.namespaces.insert id row)[other]?.map
    (·.namespaceEpoch) = if other = id then some row.namespaceEpoch else epochOf db other := by
  rw [Keyed.lookup_insert]
  by_cases same : other = id
  · rw [if_pos same, if_pos same, Option.map_some]
  · rw [if_neg same, if_neg same, epochOf]

theorem epoch_same (db after : Database) (namespaces : after.namespaces = db.namespaces) : EpochMove none db after := by
  intro namespaceId epoch before
  exact ⟨epoch, by rw [epochOf, namespaces]; exact before, rfl⟩

-- A row put in place of one with its own epoch.
theorem epoch_kept (db after : Database) (id : Uuid) (row : NamespaceRow)
    (namespaces : after.namespaces = db.namespaces.insert id row)
    (kept : ∀ epoch, epochOf db id = some epoch → row.namespaceEpoch = epoch) : EpochMove none db after := by
  intro namespaceId epoch before
  refine ⟨epoch, ?_, rfl⟩
  rw [epochOf, namespaces, epoch_insert]
  by_cases same : namespaceId = id
  · subst same
    rw [if_pos rfl, kept epoch before]
  · rw [if_neg same, before]

theorem epoch_bumped (db after : Database) (id : Uuid) (current row : NamespaceRow) (stored : db.namespaces[id]? = some current)
    (room : current.namespaceEpoch.toNat + 1 < 2 ^ 64) (next : row.namespaceEpoch = current.namespaceEpoch + 1)
    (namespaces : after.namespaces = db.namespaces.insert id row) : EpochMove (some id) db after := by
  intro namespaceId epoch before
  rw [epochOf, namespaces, epoch_insert]
  by_cases same : namespaceId = id
  · subst same
    rw [epochOf, stored, Option.map_some] at before
    cases before
    refine ⟨row.namespaceEpoch, if_pos rfl, ?_⟩
    rw [if_pos rfl, next, UInt64.toNat_add, UInt64.toNat_one, Nat.mod_eq_of_lt room]
  · refine ⟨epoch, by rw [if_neg same, before], ?_⟩
    rw [if_neg fun equal => same (Option.some.inj equal).symm]

theorem create_namespace_epochs (displayName : String) (id result : Uuid) (db after : Database)
    (run : createNamespace displayName id db = .ok (after, result)) : EpochMove none db after := by
  simp only [createNamespace, bind_ok, insert_new_ok] at run
  obtain ⟨name, _, _, ⟨fresh, rfl⟩, done⟩ := run
  cases done
  apply epoch_kept db _ id _ rfl
  intro epoch before
  rw [epochOf, fresh] at before
  cases before

theorem rename_namespace_epochs (displayName : String) (id result : Uuid) (db after : Database)
    (run : renameNamespace id displayName db = .ok (after, result)) : EpochMove none db after := by
  simp only [renameNamespace, bind_ok, found_ok] at run
  obtain ⟨name, _, row, stored, done⟩ := run
  cases done
  apply epoch_kept db _ id _ rfl
  intro epoch before
  rw [epochOf, stored, Option.map_some] at before
  exact Option.some.inj before

theorem head_moved_epochs (db after : Database) (id : Uuid) (current : NamespaceRow) (head : Option String)
    (stored : db.namespaces[id]? = some current)
    (namespaces : after.namespaces = db.namespaces.insert id { current with headRevision := head }) : EpochMove none db after := by
  apply epoch_kept db after id _ namespaces
  intro epoch before
  rw [epochOf, stored, Option.map_some] at before
  exact Option.some.inj before

theorem commit_purge_epochs (namespaceId : Uuid) (expected plan : HistoryTrashPurgePlan) (operationId : Uuid) (ids : Nat → Uuid)
    (now : Nanos) (db after : Database) (entries : List GcQueueEntry)
    (run : commitHistoryTrashPurge namespaceId expected operationId ids now db = .ok (after, plan, entries)) :
    EpochMove none db after := by
  obtain ⟨_, _, enqueued⟩ := commit_purge_ok namespaceId expected plan operationId ids now db after entries run
  simp only [enqueueGcObjectsForPurge, bind_ok] at enqueued
  obtain ⟨_, _, enqueued⟩ := enqueued
  have quiet := enqueue_objects_quiet _ _ _ _ _ _ _ enqueued
  apply epoch_same
  rw [quiet, purge_operations_heads]

theorem call_epochs (lib : Primitives) (db after : Database) (call : Call) (run : call.run lib db = .ok after) :
    EpochMove call.rewrites db after := by
  cases call with
  | createNamespace displayName id =>
      obtain ⟨result, run⟩ := (fst_map_ok _ _).mp run
      exact create_namespace_epochs displayName id result db after run
  | renameNamespace namespaceId displayName =>
      obtain ⟨result, run⟩ := (fst_map_ok _ _).mp run
      exact rename_namespace_epochs displayName namespaceId result db after run
  | recordStorageObject object now =>
      simp only [Call.run, recordStorageObject, bind_ok] at run
      obtain ⟨_, _, run⟩ := run
      split at run <;> cases run <;> exact epoch_same _ _ rfl
  | replaceObjectEdges owner targets =>
      simp only [Call.run, replaceObjectEdges, bind_ok] at run
      obtain ⟨_, _, done⟩ := run
      cases done
      exact epoch_same _ _ rfl
  | commitRevision head revision =>
      obtain ⟨outcome, run⟩ := (fst_map_ok _ _).mp run
      rcases commit_revision_ok lib head revision db after outcome run with ⟨_, rfl⟩ | ⟨_, current, _, _, _, row, _, _, _, rfl⟩
      · exact epoch_same _ _ rfl
      · exact head_moved_epochs db _ _ current _ row rfl
  | commitRevisionRoot head epoch revision =>
      obtain ⟨reply, run⟩ := (fst_map_ok _ _).mp run
      obtain ⟨_, current, _, row, _, _, outcome⟩ := commit_revision_root_ok lib head epoch revision db after reply.1 reply.2 run
      rcases outcome with ⟨_, rfl, _⟩ | ⟨_, _, _, _, _, _, _, _, rfl⟩
      · exact epoch_same _ _ rfl
      · exact head_moved_epochs db _ _ current _ row rfl
  | truncateHistory namespaceId head epoch newHead operationId now =>
      obtain ⟨operation, run⟩ := (fst_map_ok _ _).mp run
      obtain ⟨current, _, row, _, _, _, _, room, _, _, rfl⟩ :=
        truncate_history_ok namespaceId head epoch newHead operationId now db after operation run
      exact epoch_bumped db _ namespaceId current _ row room rfl rfl
  | restoreHistoryTrash namespaceId operationId head epoch now =>
      obtain ⟨restored, run⟩ := (fst_map_ok _ _).mp run
      obtain ⟨current, _, row, _, _, _, _, _, _, _, room, rfl⟩ :=
        restore_history_trash_ok namespaceId operationId head epoch now db after restored run
      exact epoch_bumped db _ namespaceId current _ row room rfl rfl
  | commitHistoryTrashPurge namespaceId expected operationId ids now =>
      obtain ⟨⟨plan, entries⟩, run⟩ := (fst_map_ok _ _).mp run
      exact commit_purge_epochs namespaceId expected plan operationId ids now db after entries run
  | enqueueGc fingerprint operationId ids now =>
      obtain ⟨⟨result, entries⟩, run⟩ := (fst_map_ok _ _).mp run
      simp only [enqueueGc, bind_ok] at run
      obtain ⟨_, _, _, _, ⟨next, queued⟩, enqueued, done⟩ := run
      cases done
      have quiet := enqueue_objects_quiet _ _ _ _ _ _ _ enqueued
      rw [quiet]
      exact epoch_same _ _ rfl
  | completeGcEntry entry now =>
      cases run
      exact epoch_same _ _ rfl
  | cancelGcEntry entryId =>
      cases run
      exact epoch_same _ _ rfl
  | markGcEntryPurged entryId =>
      cases run
      exact epoch_same _ _ rfl

-- A known revision stays known, so a head that moves without a new epoch moves to
-- a revision nobody had before.
structure Advanced (namespaceId : Uuid) (db after : Database) : Prop where
  known : ∀ (id : String) (row : RevisionRow), db.revisions[id]? = some row → ∃ later, after.revisions[id]? = some later
  moved : ∀ head epoch, getHeadState db namespaceId = some (head, epoch) →
    ∃ headAfter epochAfter, getHeadState after namespaceId = some (headAfter, epochAfter) ∧
      (epoch < epochAfter ∨
        epochAfter = epoch ∧ (headAfter = head ∨ ∃ id, headAfter = some id ∧ db.revisions[id]? = none))

theorem advanced_refl (namespaceId : Uuid) (db : Database) : Advanced namespaceId db db :=
  ⟨fun _ row stored => ⟨row, stored⟩, fun head epoch current => ⟨head, epoch, current, .inr ⟨rfl, .inl rfl⟩⟩⟩

theorem advanced_trans (namespaceId : Uuid) (db mid after : Database) (first : Advanced namespaceId db mid)
    (second : Advanced namespaceId mid after) : Advanced namespaceId db after := by
  refine ⟨fun id row stored => ?_, fun head epoch current => ?_⟩
  · obtain ⟨row, stored⟩ := first.known id row stored
    exact second.known id row stored
  · obtain ⟨headMid, epochMid, currentMid, one⟩ := first.moved head epoch current
    obtain ⟨headAfter, epochAfter, currentAfter, two⟩ := second.moved headMid epochMid currentMid
    refine ⟨headAfter, epochAfter, currentAfter, ?_⟩
    have fresh : ∀ (id : String), mid.revisions[id]? = none → db.revisions[id]? = none := by
      intro id absent
      by_contra present
      obtain ⟨row, stored⟩ := Option.ne_none_iff_exists'.mp present
      obtain ⟨later, kept⟩ := first.known id row stored
      rw [absent] at kept
      cases kept
    rcases one with less | ⟨rfl, same | fresher⟩
    · rcases two with more | ⟨rfl, _⟩
      · exact .inl (UInt64.lt_trans less more)
      · exact .inl less
    · rcases two with more | ⟨rfl, same' | ⟨id, named, absent⟩⟩
      · exact .inl more
      · exact .inr ⟨rfl, .inl (same'.trans same)⟩
      · exact .inr ⟨rfl, .inr ⟨id, named, fresh id absent⟩⟩
    · rcases two with more | ⟨rfl, same' | ⟨id, named, absent⟩⟩
      · exact .inl more
      · exact .inr ⟨rfl, .inr (same' ▸ fresher)⟩
      · exact .inr ⟨rfl, .inr ⟨id, named, fresh id absent⟩⟩

theorem next_epoch_lt (epoch : UInt64) (room : epoch.toNat + 1 < 2 ^ 64) : epoch < epoch + 1 := by
  rw [UInt64.lt_iff_toNat_lt, UInt64.toNat_add, UInt64.toNat_one, Nat.mod_eq_of_lt room]
  exact Nat.lt_succ_self _

-- The heads of a call that moves one namespace to a later pair.
theorem moved_of_heads (db after : Database) (target : Uuid) (head headAfter : Option String) (epoch epochAfter : UInt64)
    (current : getHeadState db target = some (head, epoch))
    (heads : ∀ other, getHeadState after other = if other = target then some (headAfter, epochAfter) else getHeadState db other)
    (later : epoch < epochAfter ∨
      epochAfter = epoch ∧ (headAfter = head ∨ ∃ id, headAfter = some id ∧ db.revisions[id]? = none))
    (known : ∀ (id : String) (row : RevisionRow), db.revisions[id]? = some row → ∃ later, after.revisions[id]? = some later)
    (namespaceId : Uuid) : Advanced namespaceId db after := by
  refine ⟨known, fun top count before => ?_⟩
  rw [heads]
  by_cases same : namespaceId = target
  · rw [same, current] at before
    cases before
    exact ⟨headAfter, epochAfter, if_pos same, later⟩
  · exact ⟨top, count, (if_neg same).trans before, .inr ⟨rfl, .inl rfl⟩⟩

theorem history_step_advances (namespaceId : Uuid) (db after : Database) (moved : HistoryStep db after) :
    Advanced namespaceId db after := by
  cases moved with
  | quiet effect =>
      refine ⟨fun id row stored => ⟨row, by rw [effect.revisions, stored]⟩, fun head epoch current => ?_⟩
      exact ⟨head, epoch, (effect.heads namespaceId).trans current, .inr ⟨rfl, .inl rfl⟩⟩
  | create id effect =>
      refine ⟨fun id row stored => ⟨row, by rw [effect.revisions, stored]⟩, fun head epoch current => ?_⟩
      have other : namespaceId ≠ id := by
        intro same
        rw [same, effect.fresh] at current
        cases current
      exact ⟨head, epoch, by rw [effect.heads, if_neg other, current], .inr ⟨rfl, .inl rfl⟩⟩
  | commit target head epoch id row effect =>
      apply moved_of_heads db after target head (some id) epoch epoch effect.current effect.heads
      · exact .inr ⟨rfl, .inr ⟨id, rfl, effect.fresh⟩⟩
      · exact fun other old stored => ⟨old, commit_kept db after target head epoch id row effect other old stored⟩
  | truncate target head newHead epoch removed operationId operation effect =>
      apply moved_of_heads db after target head newHead epoch (epoch + 1) effect.current effect.heads
      · exact .inl (next_epoch_lt epoch effect.room)
      · intro id row stored
        exact ⟨_, retag_stored db after _
          (truncate_lookup db after target head newHead epoch removed operationId operation effect) id row stored⟩
  | restore target head epoch operationId operation effect =>
      apply moved_of_heads db after target head operation.oldHead epoch (epoch + 1) effect.current effect.heads
      · exact .inl (next_epoch_lt epoch effect.room)
      · intro id row stored
        exact ⟨_, retag_stored db after (fun _ => reactivate operationId)
          (restore_lookup db after target head epoch operationId operation effect) id row stored⟩
  | purge target selected effect =>
      refine ⟨fun id row stored => ?_, fun head epoch current => ?_⟩
      · exact ⟨_, retag_stored db after (fun _ => purgeSelected target selected)
          (purge_lookup db after target selected effect) id row stored⟩
      · exact ⟨head, epoch, (effect.heads namespaceId).trans current, .inr ⟨rfl, .inl rfl⟩⟩

-- The state after the first `count` calls of a run.
def stateAt (lib : Primitives) (calls : List Call) (count : Nat) : Database := runCalls lib (calls.take count)

theorem state_at_succ (lib : Primitives) (calls : List Call) (count : Nat) (call : Call) (issued : calls[count]? = some call) :
    stateAt lib calls (count + 1) = step lib (stateAt lib calls count) call := by
  rw [stateAt, List.take_add_one, issued, Option.toList_some, runCalls, List.foldl_append, List.foldl_cons, List.foldl_nil,
    stateAt, runCalls]

theorem step_advances (lib : Primitives) (namespaceId : Uuid) (db : Database) (call : Call) :
    Advanced namespaceId db (step lib db call) := by
  unfold step
  cases run : call.run lib db with
  | error reason => exact advanced_refl namespaceId db
  | ok after => exact history_step_advances namespaceId db after (call_step lib db after call run)

theorem run_advances (lib : Primitives) (calls : List Call) (namespaceId : Uuid) (start extra : Nat) :
    Advanced namespaceId (stateAt lib calls start) (stateAt lib calls (start + extra)) := by
  induction extra with
  | zero => exact advanced_refl namespaceId _
  | succ extra ih =>
      apply advanced_trans namespaceId _ _ _ ih
      cases issued : calls[start + extra]? with
      | none =>
          have stopped : stateAt lib calls (start + (extra + 1)) = stateAt lib calls (start + extra) := by
            rw [stateAt, ← Nat.add_assoc, List.take_add_one, issued, Option.toList_none, List.append_nil, stateAt]
          rw [stopped]
          exact advanced_refl namespaceId _
      | some call =>
          rw [← Nat.add_assoc, state_at_succ lib calls (start + extra) call issued]
          exact step_advances lib namespaceId _ call

theorem head_known (db : Database) (inv : HistoryInv db) (namespaceId : Uuid) (id : String) (epoch : UInt64)
    (current : getHeadState db namespaceId = some (some id, epoch)) : ∃ row, db.revisions[id]? = some row := by
  obtain ⟨path, walk, _⟩ := inv.chain namespaceId (some id) epoch current
  cases path with
  | nil => cases walk
  | cons node rest =>
      obtain ⟨same, parent, found, _⟩ := walk
      cases same
      obtain ⟨row, stored, _⟩ := Option.map_eq_some_iff.mp found
      exact ⟨row, stored⟩

-- A pair that was left: the epoch has grown, or the head is a revision that the
-- pair's own head cannot be.
theorem left_for_good (db mid after : Database) (inv : HistoryInv db) (namespaceId : Uuid) (pair : Option String × UInt64)
    (first : Advanced namespaceId db mid) (second : Advanced namespaceId mid after)
    (held : getHeadState db namespaceId = some pair) (left : getHeadState mid namespaceId ≠ some pair) :
    getHeadState after namespaceId ≠ some pair := by
  obtain ⟨head, epoch⟩ := pair
  obtain ⟨headMid, epochMid, currentMid, one⟩ := first.moved head epoch held
  obtain ⟨headAfter, epochAfter, currentAfter, two⟩ := second.moved headMid epochMid currentMid
  intro back
  rw [currentAfter] at back
  cases back
  rcases two with more | ⟨rfl, two⟩
  · rcases one with less | ⟨rfl, _⟩
    · exact UInt64.lt_asymm less more
    · exact UInt64.lt_irrefl _ more
  · rcases two with rfl | ⟨id, rfl, absent⟩
    · exact left currentMid
    · obtain ⟨row, stored⟩ := head_known db inv namespaceId id _ held
      obtain ⟨later, kept⟩ := first.known id row stored
      rw [absent] at kept
      cases kept

section Runs

variable (lib : Primitives) (calls : List Call)

def CreatedAt (index : Nat) (head : Option String) (epoch : UInt64) (revision : NewRevisionMetadata) : Prop :=
  calls[index]? = some (.commitRevisionRoot head epoch revision) ∧
    ∃ after reply, commitRevisionRoot lib head epoch revision (stateAt lib calls index) = .ok (after, .created, reply)

structure NoAba : Prop where
  created : ∀ index head epoch revision, CreatedAt lib calls index head epoch revision →
    getHeadState (stateAt lib calls index) revision.namespaceId = some (head, epoch)
  left : ∀ namespaceId pair first second third, first ≤ second → second ≤ third →
    getHeadState (stateAt lib calls first) namespaceId = some pair →
    getHeadState (stateAt lib calls second) namespaceId ≠ some pair →
    getHeadState (stateAt lib calls third) namespaceId ≠ some pair
  once : ∀ first second head epoch one other, CreatedAt lib calls first head epoch one →
    CreatedAt lib calls second head epoch other → one.namespaceId = other.namespaceId → first = second
  repeated : ∀ first second head epoch one, CreatedAt lib calls first head epoch one → first < second →
    ∀ later expected other after outcome reply, other.id = one.id →
      commitRevisionRoot lib later expected other (stateAt lib calls second) = .ok (after, outcome, reply) →
      outcome = .alreadyCommitted ∧ after = stateAt lib calls second
  moves : ∀ index call after, calls[index]? = some call → call.run lib (stateAt lib calls index) = .ok after →
    EpochMove call.rewrites (stateAt lib calls index) after
  grows : ∀ namespaceId first second epoch, first ≤ second → epochOf (stateAt lib calls first) namespaceId = some epoch →
    ∃ later, epochOf (stateAt lib calls second) namespaceId = some later ∧ epoch ≤ later

theorem advances_between (namespaceId : Uuid) (first second : Nat) (order : first ≤ second) :
    Advanced namespaceId (stateAt lib calls first) (stateAt lib calls second) := by
  have gap := run_advances lib calls namespaceId first (second - first)
  rw [Nat.add_sub_cancel' order] at gap
  exact gap

theorem epoch_of_head (db : Database) (namespaceId : Uuid) : epochOf db namespaceId = (getHeadState db namespaceId).map Prod.snd := by
  rw [epochOf, getHeadState, Option.map_map]
  rfl

theorem created_pair (index : Nat) (head : Option String) (epoch : UInt64) (revision : NewRevisionMetadata)
    (created : CreatedAt lib calls index head epoch revision) :
    getHeadState (stateAt lib calls index) revision.namespaceId = some (head, epoch) ∧
      (stateAt lib calls index).revisions[revision.id]? = none ∧
      getHeadState (stateAt lib calls (index + 1)) revision.namespaceId = some (some revision.id, epoch) ∧
      ∃ row, (stateAt lib calls (index + 1)).revisions[revision.id]? = some row := by
  obtain ⟨issued, after, reply, run⟩ := created
  have stepped : stateAt lib calls (index + 1) = after := by
    rw [state_at_succ lib calls index _ issued, step, Call.run, run]
    rfl
  obtain ⟨_, current, _, row, rfl, _, outcome⟩ := commit_revision_root_ok lib head epoch revision _ after _ reply run
  rcases outcome with ⟨impossible, _⟩ | ⟨_, rfl, _, _, _, written, _, fresh, changed⟩
  · cases impossible
  · refine ⟨?_, fresh, ?_, written, ?_⟩
    · rw [getHeadState, row, Option.map_some]
    · rw [stepped, changed, getHeadState, head_state_insert, if_pos rfl]
    · rw [stepped, changed, Keyed.lookup_insert, if_pos rfl]

-- The first commit moved the head to its own fresh revision, so the pair was left.
theorem created_once (first second : Nat) (head : Option String) (epoch : UInt64) (one other : NewRevisionMetadata)
    (before : CreatedAt lib calls first head epoch one) (after : CreatedAt lib calls second head epoch other)
    (space : one.namespaceId = other.namespaceId) : ¬ first < second := by
  intro order
  obtain ⟨held, fresh, moved, _⟩ := created_pair lib calls first head epoch one before
  obtain ⟨again, _⟩ := created_pair lib calls second head epoch other after
  have inv : HistoryInv (stateAt lib calls first) := run_inv lib _
  have left : getHeadState (stateAt lib calls (first + 1)) one.namespaceId ≠ some (head, epoch) := by
    intro same
    rw [moved] at same
    cases same
    obtain ⟨row, stored⟩ := head_known _ inv one.namespaceId one.id epoch held
    rw [fresh] at stored
    cases stored
  rw [← space] at again
  exact left_for_good _ _ _ inv one.namespaceId (head, epoch) (advances_between lib calls _ first (first + 1) (Nat.le_succ first))
    (advances_between lib calls _ (first + 1) second order) held left again

theorem created_repeat (first second : Nat) (head : Option String) (epoch : UInt64) (one : NewRevisionMetadata)
    (created : CreatedAt lib calls first head epoch one) (order : first < second) (later : Option String) (expected : UInt64)
    (other : NewRevisionMetadata) (after : Database) (outcome : CommitRevisionOutcome) (reply : UInt64) (same : other.id = one.id)
    (run : commitRevisionRoot lib later expected other (stateAt lib calls second) = .ok (after, outcome, reply)) :
    outcome = .alreadyCommitted ∧ after = stateAt lib calls second := by
  obtain ⟨_, _, _, row, stored⟩ := created_pair lib calls first head epoch one created
  obtain ⟨kept, present⟩ := (advances_between lib calls one.namespaceId (first + 1) second order).known one.id row stored
  obtain ⟨_, _, _, _, _, _, result⟩ := commit_revision_root_ok lib later expected other _ after outcome reply run
  rcases result with ⟨reported, unchanged, _⟩ | ⟨_, _, _, _, _, _, _, fresh, _⟩
  · exact ⟨reported, unchanged⟩
  · rw [same, present] at fresh
    cases fresh

theorem epoch_grows (namespaceId : Uuid) (first second : Nat) (epoch : UInt64) (order : first ≤ second)
    (before : epochOf (stateAt lib calls first) namespaceId = some epoch) :
    ∃ later, epochOf (stateAt lib calls second) namespaceId = some later ∧ epoch ≤ later := by
  rw [epoch_of_head] at before
  obtain ⟨⟨head, count⟩, current, rfl⟩ := Option.map_eq_some_iff.mp before
  obtain ⟨headAfter, later, reached, moved⟩ := (advances_between lib calls namespaceId first second order).moved head count current
  refine ⟨later, by rw [epoch_of_head, reached, Option.map_some], ?_⟩
  rcases moved with less | ⟨rfl, _⟩
  · exact UInt64.le_of_lt less
  · exact UInt64.le_refl _

theorem no_aba : NoAba lib calls := by
  refine ⟨fun index head epoch revision created => (created_pair lib calls index head epoch revision created).1, ?_, ?_,
    created_repeat lib calls, ?_, epoch_grows lib calls⟩
  · intro namespaceId pair first second third order later held
    exact left_for_good _ _ _ (run_inv lib _) namespaceId pair (advances_between lib calls namespaceId first second order)
      (advances_between lib calls namespaceId second third later) held
  · intro first second head epoch one other before after space
    apply Nat.le_antisymm
    · exact not_lt.mp (created_once lib calls second first head epoch other one after before space.symm)
    · exact not_lt.mp (created_once lib calls first second head epoch one other before after space)
  · intro index call after _ run
    exact call_epochs lib _ after call run

end Runs

end SessionSync.Server
