import SessionSync.Server.HistoryInv

set_option autoImplicit false

namespace SessionSync.Server

open SessionSync.Core Checked Chain

theorem trash_row_twice (operationId : Uuid) (row : RevisionRow) :
    trashRow operationId (trashRow operationId row) = trashRow operationId row := by
  by_cases active : row.state = .active
  · simp only [trashRow, active, if_true, reduceCtorEq, if_false]
  · simp only [trashRow, active, if_false]

theorem trash_fold (operationId : Uuid) (removed : List String) (table : Std.ExtTreeMap String RevisionRow) (id : String) :
    (removed.foldl (trashRevision operationId) table)[id]? =
      if id ∈ removed then table[id]?.map (trashRow operationId) else table[id]? := by
  induction removed generalizing table with
  | nil => rfl
  | cons first rest ih =>
      rw [List.foldl_cons, ih, trashRevision, Keyed.lookup_modify]
      by_cases same : id = first
      · subst same
        rw [if_pos rfl, if_pos List.mem_cons_self, Option.map_map]
        have twice : trashRow operationId ∘ trashRow operationId = trashRow operationId :=
          funext (trash_row_twice operationId)
        rw [twice, ite_self]
      · simp only [same, if_false, List.mem_cons, false_or]

theorem active_parent_known (db : Database) (namespaceId : Uuid) (id : String) (parent : Option String)
    (known : activeParent db namespaceId id = some parent) : parentOf db id = some parent ∧ ActiveIn db namespaceId id := by
  obtain ⟨row, stored, checked⟩ := Option.bind_eq_some_iff.mp known
  split at checked
  · next fits =>
      cases checked
      rw [parentOf, stored, Option.map_some]
      exact ⟨rfl, row, stored, fits⟩
  · cases checked

theorem collect_removed_walk (db : Database) (namespaceId : Uuid) (newHead : Option String) (budget : Nat)
    (head : Option String) (removed : List String) (run : collectRemoved db namespaceId newHead budget head = .ok removed) :
    Path (parentOf db) head removed newHead ∧ ∀ id ∈ removed, ActiveIn db namespaceId id := by
  induction budget generalizing head removed with
  | zero =>
      rw [collectRemoved] at run
      split at run
      · next same =>
          cases run
          exact ⟨same, fun _ member => absurd member List.not_mem_nil⟩
      · simp only [bind_ok, found_ok] at run
        obtain ⟨_, _, _, _, impossible⟩ := run
        cases impossible
  | succ budget ih =>
      rw [collectRemoved] at run
      split at run
      · next same =>
          cases run
          exact ⟨same, fun _ member => absurd member List.not_mem_nil⟩
      · simp only [bind_ok, found_ok] at run
        obtain ⟨id, rfl, parent, known, rest, tail, done⟩ := run
        cases done
        obtain ⟨ancestor, live⟩ := active_parent_known db namespaceId id parent known
        obtain ⟨walk, members⟩ := ih parent rest tail
        exact ⟨⟨rfl, parent, ancestor, walk⟩, List.forall_mem_cons.mpr ⟨live, members⟩⟩

section Retag

variable (db after : Database) (change : String → RevisionRow → RevisionRow)
  (lookup : ∀ id, after.revisions[id]? = db.revisions[id]?.map (change id))

include lookup

theorem retag_row (id : String) (new : RevisionRow) (stored : after.revisions[id]? = some new) :
    ∃ old, db.revisions[id]? = some old ∧ new = change id old := by
  rw [lookup] at stored
  obtain ⟨old, before, same⟩ := Option.map_eq_some_iff.mp stored
  exact ⟨old, before, same.symm⟩

theorem retag_stored (id : String) (old : RevisionRow) (before : db.revisions[id]? = some old) :
    after.revisions[id]? = some (change id old) := by
  rw [lookup, before, Option.map_some]

-- A call that only retags rows keeps the parent pointers.
theorem retag_parents (parent : ∀ id row, (change id row).parentRevision = row.parentRevision) :
    parentOf after = parentOf db := by
  funext id
  rw [parentOf, parentOf, lookup, Option.map_map]
  exact congrArg (Option.map · db.revisions[id]?) (funext fun row => parent id row)

theorem retag_owned (inv : HistoryInv db) (owner : ∀ id row, (change id row).namespaceId = row.namespaceId)
    (known : ∀ id state, getHeadState db id = some state → ∃ later, getHeadState after id = some later)
    (id : String) (row : RevisionRow) (stored : after.revisions[id]? = some row) :
    ∃ state, getHeadState after row.namespaceId = some state := by
  obtain ⟨old, before, rfl⟩ := retag_row db after change lookup id row stored
  obtain ⟨state, current⟩ := inv.owned id old before
  rw [owner]
  exact known _ state current

theorem retag_unpurged (owner : ∀ id row, (change id row).namespaceId = row.namespaceId) (namespaceId : Uuid) (id : String)
    (keeps : ∀ row, db.revisions[id]? = some row → row.state ≠ .purged → (change id row).state ≠ .purged)
    (unpurged : Unpurged db namespaceId id) : Unpurged after namespaceId id := by
  obtain ⟨row, before, place, live⟩ := unpurged
  exact ⟨change id row, retag_stored db after change lookup id row before, (owner id row).trans place, keeps row before live⟩

theorem retag_roots (inv : HistoryInv db)
    (roots : ∀ (id : String) (root : RevisionRootRow), after.revisionRoots[id]? = some root → db.revisionRoots[id]? = some root)
    (id : String) (root : RevisionRootRow) (stored : after.revisionRoots[id]? = some root) :
    root.rootSha256 = id ∧ ∃ row, after.revisions[id]? = some row := by
  obtain ⟨name, row, before⟩ := inv.roots id root (roots id root stored)
  exact ⟨name, _, retag_stored db after change lookup id row before⟩

end Retag

theorem active_untagged (db : Database) (inv : HistoryInv db) (operationId : Uuid) (namespaceId : Uuid) (id : String)
    (live : ActiveIn db namespaceId id) : ¬ Tagged db operationId id := by
  rintro ⟨row, stored, tag⟩
  obtain ⟨same, found, _, active⟩ := live
  rw [stored] at found
  cases found
  rw [(inv.untagged id row stored).mp active] at tag
  cases tag

section Truncate

variable (db after : Database) (namespaceId : Uuid) (head newHead : Option String) (epoch : UInt64) (removed : List String)
  (operationId : Uuid) (operation : TrashOperationRow) (inv : HistoryInv db)
  (effect : TruncateEffect db after namespaceId head newHead epoch removed operationId operation)

def truncateRow (id : String) (row : RevisionRow) : RevisionRow := if id ∈ removed then trashRow operationId row else row

theorem truncate_row_outside (id : String) (row : RevisionRow) (outside : id ∉ removed) :
    truncateRow removed operationId id row = row := if_neg outside

theorem truncate_row_place (id : String) (row : RevisionRow) :
    (truncateRow removed operationId id row).namespaceId = row.namespaceId ∧
      (truncateRow removed operationId id row).parentRevision = row.parentRevision := by
  unfold truncateRow trashRow
  split
  · split <;> exact ⟨rfl, rfl⟩
  · exact ⟨rfl, rfl⟩

include effect

theorem truncate_lookup (id : String) : after.revisions[id]? = db.revisions[id]?.map (truncateRow removed operationId id) := by
  rw [effect.revisions, trash_fold]
  by_cases member : id ∈ removed
  · have renewed : truncateRow removed operationId id = trashRow operationId := funext fun row => if_pos member
    rw [if_pos member, renewed]
  · have kept : truncateRow removed operationId id = fun row => row := funext fun row => if_neg member
    rw [if_neg member, kept, Option.map_id']

theorem truncate_walk : Path (parentOf db) head removed newHead ∧ ∀ id ∈ removed, ActiveIn db namespaceId id :=
  collect_removed_walk db namespaceId newHead historyDepth head removed effect.walk

theorem truncate_parents : parentOf after = parentOf db :=
  retag_parents db after _ (truncate_lookup db after namespaceId head newHead epoch removed operationId operation effect)
    fun id row => (truncate_row_place removed operationId id row).2

theorem truncate_operations (other : Uuid) :
    after.trashOperations[other]? = if other = operationId then some operation else db.trashOperations[other]? := by
  rw [effect.operations, Keyed.lookup_insert]

-- A removed row is active, so it gets the tag.
theorem truncate_row_inside (id : String) (row : RevisionRow) (stored : db.revisions[id]? = some row) (member : id ∈ removed) :
    row.namespaceId = namespaceId ∧
      truncateRow removed operationId id row = { row with state := .trashed, trashOperationId := some operationId } := by
  obtain ⟨found, same, place, live⟩ :=
    (truncate_walk db after namespaceId head newHead epoch removed operationId operation effect).2 id member
  rw [stored] at same
  cases same
  refine ⟨place, ?_⟩
  rw [truncateRow, if_pos member, trashRow, if_pos live]

theorem truncate_active (space : Uuid) (id : String) : ActiveIn after space id ↔ ActiveIn db space id ∧ id ∉ removed := by
  have lookup := truncate_lookup db after namespaceId head newHead epoch removed operationId operation effect
  constructor
  · rintro ⟨new, stored, owned, live⟩
    obtain ⟨row, before, rfl⟩ := retag_row db after _ lookup id new stored
    by_cases member : id ∈ removed
    · rw [(truncate_row_inside db after namespaceId head newHead epoch removed operationId operation effect id row before member).2]
        at live
      cases live
    · rw [truncate_row_outside removed operationId id row member] at owned live
      exact ⟨⟨row, before, owned, live⟩, member⟩
  · rintro ⟨⟨row, before, owned, live⟩, outside⟩
    have stored := retag_stored db after _ lookup id row before
    rw [truncate_row_outside removed operationId id row outside] at stored
    exact ⟨row, stored, owned, live⟩

theorem truncate_unpurged (space : Uuid) (id : String) (unpurged : Unpurged db space id) : Unpurged after space id := by
  have lookup := truncate_lookup db after namespaceId head newHead epoch removed operationId operation effect
  apply retag_unpurged db after _ lookup (fun id row => (truncate_row_place removed operationId id row).1) space id _ unpurged
  intro row before live
  by_cases member : id ∈ removed
  · rw [(truncate_row_inside db after namespaceId head newHead epoch removed operationId operation effect id row before member).2]
    exact nofun
  · rw [truncate_row_outside removed operationId id row member]
    exact live

include inv

theorem truncate_unused (id : String) : ¬ Tagged db operationId id := by
  rintro ⟨row, stored, tag⟩
  obtain ⟨used, known, _⟩ := inv.tagged id row stored operationId tag
  rw [effect.fresh] at known
  cases known

theorem truncate_tags (other : Uuid) (id : String) :
    Tagged after other id ↔ (other = operationId ∧ id ∈ removed) ∨ Tagged db other id := by
  have lookup := truncate_lookup db after namespaceId head newHead epoch removed operationId operation effect
  have inside := truncate_row_inside db after namespaceId head newHead epoch removed operationId operation effect id
  have live := (truncate_walk db after namespaceId head newHead epoch removed operationId operation effect).2 id
  constructor
  · rintro ⟨new, stored, tag⟩
    obtain ⟨row, before, rfl⟩ := retag_row db after _ lookup id new stored
    by_cases member : id ∈ removed
    · rw [(inside row before member).2] at tag
      cases tag
      exact .inl ⟨rfl, member⟩
    · rw [truncate_row_outside removed operationId id row member] at tag
      exact .inr ⟨row, before, tag⟩
  · rintro (⟨rfl, member⟩ | ⟨row, before, tag⟩)
    · obtain ⟨row, before, _⟩ := live member
      refine ⟨_, retag_stored db after _ lookup id row before, ?_⟩
      rw [(inside row before member).2]
    · have outside : id ∉ removed := fun member => active_untagged db inv other namespaceId id (live member) ⟨row, before, tag⟩
      have stored := retag_stored db after _ lookup id row before
      rw [truncate_row_outside removed operationId id row outside] at stored
      exact ⟨row, stored, tag⟩

-- The chain splits at the new head: the removed part above it, the rest below.
theorem truncate_split : ∃ rest, Path (parentOf db) head (removed ++ rest) none ∧ Path (parentOf db) newHead rest none ∧
    (∀ id, id ∈ removed ++ rest ↔ ActiveIn db namespaceId id) ∧ ∀ id ∈ rest, id ∉ removed := by
  obtain ⟨removedWalk, _⟩ := truncate_walk db after namespaceId head newHead epoch removed operationId operation effect
  obtain ⟨path, walk, members⟩ := inv.chain namespaceId head epoch effect.current
  obtain ⟨rest, rfl, restWalk⟩ := path_prefix (parentOf db) head newHead removed path removedWalk walk
  have distinct := List.nodup_append.mp (path_nodup (parentOf db) head _ walk)
  exact ⟨rest, walk, restWalk, members, fun id member other => distinct.2.2 id other id member rfl⟩

theorem truncate_chain (space : Uuid) (top : Option String) (later : UInt64)
    (current : getHeadState after space = some (top, later)) :
    ∃ path, Path (parentOf after) top path none ∧ ∀ id, id ∈ path ↔ ActiveIn after space id := by
  have active := truncate_active db after namespaceId head newHead epoch removed operationId operation effect space
  rw [truncate_parents db after namespaceId head newHead epoch removed operationId operation effect]
  rw [effect.heads] at current
  by_cases same : space = namespaceId
  · rw [if_pos same] at current
    cases current
    obtain ⟨rest, _, walk, members, below⟩ :=
      truncate_split db after namespaceId head newHead epoch removed operationId operation inv effect
    refine ⟨rest, walk, fun id => ?_⟩
    rw [active, same, ← members id, List.mem_append]
    constructor
    · intro member
      exact ⟨.inr member, below id member⟩
    · rintro ⟨member | member, outside⟩
      · exact absurd member outside
      · exact member
  · rw [if_neg same] at current
    obtain ⟨path, walk, members⟩ := inv.chain space top later current
    refine ⟨path, walk, fun id => ?_⟩
    rw [members, active]
    refine ⟨fun alive => ⟨alive, fun member => ?_⟩, And.left⟩
    obtain ⟨row, stored, owned, _⟩ := alive
    exact same (owned.symm.trans
      (truncate_row_inside db after namespaceId head newHead epoch removed operationId operation effect id row stored member).1)

theorem truncate_fits (id : String) (new : RevisionRow) (stored : after.revisions[id]? = some new) :
    (new.state = .active ↔ new.trashOperationId = none) ∧ ∀ tag, new.trashOperationId = some tag →
      ∃ found, after.trashOperations[tag]? = some found ∧ TagFits new found := by
  have operations := truncate_operations db after namespaceId head newHead epoch removed operationId operation effect
  have lookup := truncate_lookup db after namespaceId head newHead epoch removed operationId operation effect
  obtain ⟨row, before, rfl⟩ := retag_row db after _ lookup id new stored
  by_cases member : id ∈ removed
  · obtain ⟨owned, renewed⟩ :=
      truncate_row_inside db after namespaceId head newHead epoch removed operationId operation effect id row before member
    rw [renewed]
    refine ⟨iff_of_false nofun nofun, fun tag tagged => ?_⟩
    cases tagged
    exact ⟨operation, (operations operationId).trans (if_pos rfl), effect.owner.trans owned.symm, .inl ⟨rfl, effect.active⟩⟩
  · rw [truncate_row_outside removed operationId id row member]
    refine ⟨inv.untagged id row before, fun tag tagged => ?_⟩
    obtain ⟨known, present, fits⟩ := inv.tagged id row before tag tagged
    have different : tag ≠ operationId := by
      rintro rfl
      exact truncate_unused db after namespaceId head newHead epoch removed tag operation inv effect id ⟨row, before, tagged⟩
    exact ⟨known, (operations tag).trans ((if_neg different).trans present), fits⟩

theorem truncate_stretch (other : Uuid) (found : TrashOperationRow) (stored : after.trashOperations[other]? = some found)
    (live : found.state = .active) :
    ∃ path, Path (parentOf after) found.oldHead path found.newHead ∧ ∀ id, id ∈ path ↔ Tagged after other id := by
  have tags := truncate_tags db after namespaceId head newHead epoch removed operationId operation inv effect other
  rw [truncate_parents db after namespaceId head newHead epoch removed operationId operation effect]
  rw [truncate_operations db after namespaceId head newHead epoch removed operationId operation effect] at stored
  by_cases same : other = operationId
  · rw [if_pos same] at stored
    cases stored
    have unused := truncate_unused db after namespaceId head newHead epoch removed operationId operation inv effect
    rw [effect.oldEnd, effect.newEnd]
    refine ⟨removed, (truncate_walk db after namespaceId head newHead epoch removed operationId operation effect).1, fun id => ?_⟩
    rw [tags, same, and_iff_right rfl, or_iff_left (unused id)]
  · rw [if_neg same] at stored
    obtain ⟨path, walk, members⟩ := inv.stretch other found stored live
    refine ⟨path, walk, fun id => (members id).trans ?_⟩
    rw [tags, or_iff_right fun both => same both.1]

theorem truncate_ancestry (other : Uuid) (found : TrashOperationRow) (stored : after.trashOperations[other]? = some found)
    (live : found.state = .active) :
    ∃ path, Path (parentOf after) found.oldHead path none ∧ ∀ id ∈ path, Unpurged after found.namespaceId id := by
  have unpurged := truncate_unpurged db after namespaceId head newHead epoch removed operationId operation effect
  rw [truncate_parents db after namespaceId head newHead epoch removed operationId operation effect]
  rw [truncate_operations db after namespaceId head newHead epoch removed operationId operation effect] at stored
  by_cases same : other = operationId
  · rw [if_pos same] at stored
    cases stored
    rw [effect.oldEnd, effect.owner]
    obtain ⟨path, walk, members⟩ := inv.chain namespaceId head epoch effect.current
    refine ⟨path, walk, fun id member => unpurged namespaceId id ?_⟩
    obtain ⟨row, before, owned, alive⟩ := (members id).mp member
    exact ⟨row, before, owned, by rw [alive]; exact nofun⟩
  · rw [if_neg same] at stored
    obtain ⟨path, walk, members⟩ := inv.ancestry other found stored live
    exact ⟨path, walk, fun id member => unpurged _ id (members id member)⟩

theorem truncate_keeps : HistoryInv after := by
  have lookup := truncate_lookup db after namespaceId head newHead epoch removed operationId operation effect
  have fits := truncate_fits db after namespaceId head newHead epoch removed operationId operation inv effect
  refine ⟨?_, truncate_chain db after namespaceId head newHead epoch removed operationId operation inv effect,
    fun id new stored => (fits id new stored).1, fun id new stored => (fits id new stored).2,
    truncate_stretch db after namespaceId head newHead epoch removed operationId operation inv effect,
    truncate_ancestry db after namespaceId head newHead epoch removed operationId operation inv effect, ?_⟩
  · exact retag_owned db after _ lookup inv (fun id row => (truncate_row_place removed operationId id row).1)
      (heads_known db after namespaceId _ effect.heads)
  · exact retag_roots db after _ lookup inv fun id root stored => effect.roots ▸ stored

end Truncate

end SessionSync.Server
