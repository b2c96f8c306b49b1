import SessionSync.Server.Calls

set_option autoImplicit false

namespace SessionSync.Server

open SessionSync.Core Checked Chain

def parentOf (db : Database) (id : String) : Option (Option String) := db.revisions[id]?.map (·.parentRevision)

def ActiveIn (db : Database) (namespaceId : Uuid) (id : String) : Prop :=
  ∃ row, db.revisions[id]? = some row ∧ row.namespaceId = namespaceId ∧ row.state = .active

def Tagged (db : Database) (operationId : Uuid) (id : String) : Prop :=
  ∃ row, db.revisions[id]? = some row ∧ row.trashOperationId = some operationId

def Unpurged (db : Database) (namespaceId : Uuid) (id : String) : Prop :=
  ∃ row, db.revisions[id]? = some row ∧ row.namespaceId = namespaceId ∧ row.state ≠ .purged

-- A trashed revision belongs to an active operation, a purged one to a purged operation.
def TagFits (row : RevisionRow) (operation : TrashOperationRow) : Prop :=
  operation.namespaceId = row.namespaceId ∧
    ((row.state = .trashed ∧ operation.state = .active) ∨ (row.state = .purged ∧ operation.state = .purged))

structure HistoryInv (db : Database) : Prop where
  owned : ∀ (id : String) (row : RevisionRow), db.revisions[id]? = some row → ∃ state, getHeadState db row.namespaceId = some state
  chain : ∀ namespaceId head epoch, getHeadState db namespaceId = some (head, epoch) →
    ∃ path, Path (parentOf db) head path none ∧ ∀ id, id ∈ path ↔ ActiveIn db namespaceId id
  untagged : ∀ (id : String) (row : RevisionRow), db.revisions[id]? = some row → (row.state = .active ↔ row.trashOperationId = none)
  tagged : ∀ (id : String) (row : RevisionRow), db.revisions[id]? = some row →
    ∀ operationId, row.trashOperationId = some operationId →
    ∃ operation, db.trashOperations[operationId]? = some operation ∧ TagFits row operation
  stretch : ∀ (operationId : Uuid) (operation : TrashOperationRow), db.trashOperations[operationId]? = some operation →
    operation.state = .active →
    ∃ path, Path (parentOf db) operation.oldHead path operation.newHead ∧ ∀ id, id ∈ path ↔ Tagged db operationId id
  ancestry : ∀ (operationId : Uuid) (operation : TrashOperationRow), db.trashOperations[operationId]? = some operation →
    operation.state = .active →
    ∃ path, Path (parentOf db) operation.oldHead path none ∧ ∀ id ∈ path, Unpurged db operation.namespaceId id
  roots : ∀ (id : String) (root : RevisionRootRow), db.revisionRoots[id]? = some root →
    root.rootSha256 = id ∧ ∃ row, db.revisions[id]? = some row

theorem initialized_inv : HistoryInv Database.initialized := by
  have noRevision : ∀ (id : String) (row : RevisionRow), Database.initialized.revisions[id]? ≠ some row := by
    intro id row stored
    rw [Database.initialized, Std.ExtTreeMap.getElem?_empty] at stored
    cases stored
  have noOperation : ∀ (id : Uuid) (row : TrashOperationRow), Database.initialized.trashOperations[id]? ≠ some row := by
    intro id row stored
    rw [Database.initialized, Std.ExtTreeMap.getElem?_empty] at stored
    cases stored
  refine ⟨fun id row stored => absurd stored (noRevision id row), fun namespaceId head epoch current => ?_,
    fun id row stored => absurd stored (noRevision id row), fun id row stored => absurd stored (noRevision id row),
    fun id row stored => absurd stored (noOperation id row), fun id row stored => absurd stored (noOperation id row),
    fun id root stored => ?_⟩
  · rw [getHeadState, Database.initialized, Std.ExtTreeMap.getElem?_empty] at current
    cases current
  · rw [Database.initialized, Std.ExtTreeMap.getElem?_empty] at stored
    cases stored

section SameTables

variable (db after : Database) (inv : HistoryInv db) (revisions : after.revisions = db.revisions)
  (operations : after.trashOperations = db.trashOperations) (roots : after.revisionRoots = db.revisionRoots)

include inv revisions operations roots

-- Only namespace rows moved: what is left to show is about the heads.
theorem same_tables_keep
    (known : ∀ id state, getHeadState db id = some state → ∃ later, getHeadState after id = some later)
    (chain : ∀ id head epoch, getHeadState after id = some (head, epoch) →
      getHeadState db id = some (head, epoch) ∨ getHeadState db id = none ∧ head = none) : HistoryInv after := by
  have parents : parentOf after = parentOf db := by
    funext id
    rw [parentOf, revisions, parentOf]
  refine ⟨fun id row stored => ?_, fun namespaceId head epoch current => ?_, ?_, ?_, ?_, ?_, ?_⟩
  · rw [revisions] at stored
    obtain ⟨state, before⟩ := inv.owned id row stored
    exact known _ state before
  · simp only [ActiveIn, revisions, parents]
    rcases chain namespaceId head epoch current with before | ⟨absent, rfl⟩
    · exact inv.chain namespaceId head epoch before
    · refine ⟨[], rfl, fun id => iff_of_false List.not_mem_nil ?_⟩
      rintro ⟨row, stored, rfl, _⟩
      obtain ⟨state, before⟩ := inv.owned id row stored
      rw [absent] at before
      cases before
  · rw [revisions]
    exact inv.untagged
  · rw [revisions, operations]
    exact inv.tagged
  · simp only [Tagged, revisions, operations, parents]
    exact inv.stretch
  · simp only [Unpurged, revisions, operations, parents]
    exact inv.ancestry
  · rw [revisions, roots]
    exact inv.roots

end SameTables

theorem quiet_keeps (db after : Database) (inv : HistoryInv db) (effect : QuietEffect db after) : HistoryInv after := by
  apply same_tables_keep db after inv effect.revisions effect.operations effect.roots
  · intro id state before
    exact ⟨state, (effect.heads id).trans before⟩
  · intro id head epoch current
    exact .inl ((effect.heads id).symm.trans current)

theorem create_keeps (db after : Database) (inv : HistoryInv db) (created : Uuid) (effect : CreateEffect db after created) :
    HistoryInv after := by
  apply same_tables_keep db after inv effect.revisions effect.operations effect.roots
  · intro id state before
    rw [effect.heads]
    by_cases same : id = created
    · exact ⟨_, if_pos same⟩
    · exact ⟨state, (if_neg same).trans before⟩
  · intro id head epoch current
    rw [effect.heads] at current
    by_cases same : id = created
    · rw [if_pos same] at current
      cases current
      exact .inr ⟨same ▸ effect.fresh, rfl⟩
    · rw [if_neg same] at current
      exact .inl current

theorem heads_known (db after : Database) (namespaceId : Uuid) (moved : Option String × UInt64)
    (heads : ∀ other, getHeadState after other = if other = namespaceId then some moved else getHeadState db other)
    (id : Uuid) (state : Option String × UInt64) (before : getHeadState db id = some state) :
    ∃ later, getHeadState after id = some later := by
  rw [heads]
  by_cases same : id = namespaceId
  · exact ⟨_, if_pos same⟩
  · exact ⟨state, (if_neg same).trans before⟩

section Commit

variable (db after : Database) (namespaceId : Uuid) (head : Option String) (epoch : UInt64) (id : String) (row : RevisionRow)
  (effect : CommitEffect db after namespaceId head epoch id row)

include effect

theorem commit_lookup (other : String) : after.revisions[other]? = if other = id then some row else db.revisions[other]? := by
  rw [effect.revisions, Keyed.lookup_insert]

theorem commit_kept (other : String) (old : RevisionRow) (stored : db.revisions[other]? = some old) :
    after.revisions[other]? = some old := by
  have different : other ≠ id := by
    intro same
    rw [same, effect.fresh] at stored
    cases stored
  rw [commit_lookup db after namespaceId head epoch id row effect, if_neg different, stored]

-- A row of the new table is the new one or an old one.
theorem commit_rows (holds : String → RevisionRow → Prop) (new : holds id row)
    (old : ∀ (other : String) (found : RevisionRow), db.revisions[other]? = some found → holds other found)
    (other : String) (found : RevisionRow) (stored : after.revisions[other]? = some found) : holds other found := by
  rw [commit_lookup db after namespaceId head epoch id row effect] at stored
  by_cases same : other = id
  · rw [if_pos same] at stored
    cases stored
    exact same ▸ new
  · rw [if_neg same] at stored
    exact old other found stored

theorem commit_grows (node : String) (ancestor : Option String) (known : parentOf db node = some ancestor) :
    parentOf after node = some ancestor := by
  obtain ⟨old, stored, rfl⟩ := Option.map_eq_some_iff.mp known
  rw [parentOf, commit_kept db after namespaceId head epoch id row effect node old stored, Option.map_some]

theorem commit_tags (operationId : Uuid) (other : String) : Tagged after operationId other ↔ Tagged db operationId other := by
  constructor
  · rintro ⟨found, stored, tag⟩
    revert tag
    apply commit_rows db after namespaceId head epoch id row effect
      (fun other found => found.trashOperationId = some operationId → Tagged db operationId other) ?_ ?_ other found stored
    · intro tag
      rw [effect.untagged] at tag
      cases tag
    · intro other found before tag
      exact ⟨found, before, tag⟩
  · rintro ⟨found, stored, tag⟩
    exact ⟨found, commit_kept db after namespaceId head epoch id row effect other found stored, tag⟩

theorem commit_active (space : Uuid) (other : String) :
    ActiveIn after space other ↔ (other = id ∧ space = namespaceId) ∨ ActiveIn db space other := by
  have lookup := commit_lookup db after namespaceId head epoch id row effect other
  constructor
  · rintro ⟨found, stored, place, live⟩
    rw [lookup] at stored
    by_cases same : other = id
    · rw [if_pos same] at stored
      cases stored
      exact .inl ⟨same, place.symm.trans effect.owner⟩
    · rw [if_neg same] at stored
      exact .inr ⟨found, stored, place, live⟩
  · rintro (⟨same, rfl⟩ | ⟨found, stored, place, live⟩)
    · exact ⟨row, lookup.trans (if_pos same), effect.owner, effect.active⟩
    · exact ⟨found, commit_kept db after namespaceId head epoch id row effect other found stored, place, live⟩

theorem commit_chain (inv : HistoryInv db) (space : Uuid) (top : Option String) (later : UInt64)
    (current : getHeadState after space = some (top, later)) :
    ∃ path, Path (parentOf after) top path none ∧ ∀ other, other ∈ path ↔ ActiveIn after space other := by
  have grow := commit_grows db after namespaceId head epoch id row effect
  have active := commit_active db after namespaceId head epoch id row effect
  rw [effect.heads] at current
  by_cases same : space = namespaceId
  · rw [if_pos same] at current
    cases current
    subst same
    obtain ⟨path, walk, members⟩ := inv.chain space head epoch effect.current
    refine ⟨id :: path, ⟨rfl, head, ?_, path_grow _ _ head none path grow walk⟩, fun other => ?_⟩
    · rw [parentOf, effect.revisions, Keyed.lookup_insert, if_pos rfl, Option.map_some, effect.parent]
    · rw [List.mem_cons, members, active, and_iff_left rfl]
  · rw [if_neg same] at current
    obtain ⟨path, walk, members⟩ := inv.chain space top later current
    refine ⟨path, path_grow _ _ top none path grow walk, fun other => ?_⟩
    rw [members, active, or_iff_right fun both => same both.2]

theorem commit_roots (inv : HistoryInv db) (other : String) (root : RevisionRootRow)
    (stored : after.revisionRoots[other]? = some root) : root.rootSha256 = other ∧ ∃ found, after.revisions[other]? = some found := by
  have old : db.revisionRoots[other]? = some root → root.rootSha256 = other ∧ ∃ found, after.revisions[other]? = some found := by
    intro before
    obtain ⟨name, found, present⟩ := inv.roots other root before
    exact ⟨name, found, commit_kept db after namespaceId head epoch id row effect other found present⟩
  rcases effect.roots with same | ⟨schema, inserted⟩
  · rw [same] at stored
    exact old stored
  · rw [inserted, Keyed.lookup_insert] at stored
    by_cases same : other = id
    · rw [if_pos same] at stored
      cases stored
      exact ⟨same.symm, row, (commit_lookup db after namespaceId head epoch id row effect other).trans (if_pos same)⟩
    · rw [if_neg same] at stored
      exact old stored

theorem commit_keeps (inv : HistoryInv db) : HistoryInv after := by
  have rows := commit_rows db after namespaceId head epoch id row effect
  have grow := commit_grows db after namespaceId head epoch id row effect
  have known := heads_known db after namespaceId _ effect.heads
  refine ⟨?_, commit_chain db after namespaceId head epoch id row effect inv, ?_, ?_, ?_, ?_,
    commit_roots db after namespaceId head epoch id row effect inv⟩
  · apply rows
    · exact known _ _ (effect.owner ▸ effect.current)
    · intro other old stored
      obtain ⟨state, before⟩ := inv.owned other old stored
      exact known _ state before
  · apply rows
    · exact iff_of_true effect.active effect.untagged
    · exact inv.untagged
  · rw [effect.operations]
    apply rows (fun _ found => ∀ operationId, found.trashOperationId = some operationId →
      ∃ operation, db.trashOperations[operationId]? = some operation ∧ TagFits found operation)
    · intro operationId tag
      rw [effect.untagged] at tag
      cases tag
    · exact inv.tagged
  · intro operationId operation stored live
    rw [effect.operations] at stored
    obtain ⟨path, walk, members⟩ := inv.stretch operationId operation stored live
    refine ⟨path, path_grow _ _ _ _ path grow walk, fun other => (members other).trans ?_⟩
    exact (commit_tags db after namespaceId head epoch id row effect operationId other).symm
  · intro operationId operation stored live
    rw [effect.operations] at stored
    obtain ⟨path, walk, members⟩ := inv.ancestry operationId operation stored live
    refine ⟨path, path_grow _ _ _ _ path grow walk, fun other member => ?_⟩
    obtain ⟨old, before, place, notPurged⟩ := members other member
    exact ⟨old, commit_kept db after namespaceId head epoch id row effect other old before, place, notPurged⟩

end Commit

end SessionSync.Server
