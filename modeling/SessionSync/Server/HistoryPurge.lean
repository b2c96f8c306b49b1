import SessionSync.Server.HistoryRestore

set_option autoImplicit false

namespace SessionSync.Server

open SessionSync.Core Checked Chain

def purgeSelected (namespaceId : Uuid) (selected : List Uuid) (row : RevisionRow) : RevisionRow :=
  if isSelected namespaceId selected row then { row with state := .purged } else row

theorem is_selected_iff (namespaceId : Uuid) (selected : List Uuid) (row : RevisionRow) :
    isSelected namespaceId selected row = true ↔ row.namespaceId = namespaceId ∧ row.state = .trashed ∧
      ∃ operation ∈ selected, row.trashOperationId = some operation := by
  simp only [isSelected, Bool.and_eq_true, decide_eq_true_eq, and_assoc]
  refine and_congr_right fun _ => and_congr_right fun _ => ?_
  cases row.trashOperationId with
  | none => exact iff_of_false nofun fun ⟨_, _, impossible⟩ => nomatch impossible
  | some tag =>
      rw [Option.any_some, List.contains_iff_mem]
      constructor
      · intro member
        exact ⟨tag, member, rfl⟩
      · rintro ⟨operation, member, same⟩
        cases same
        exact member

theorem purge_selected_cons (namespaceId first : Uuid) (rest : List Uuid) (row : RevisionRow) :
    purgeSelected namespaceId rest (purgeRow namespaceId first row) = purgeSelected namespaceId (first :: rest) row := by
  by_cases here : isSelected namespaceId [first] row = true
  · obtain ⟨place, trashed, operation, member, tag⟩ := (is_selected_iff namespaceId [first] row).mp here
    have both : isSelected namespaceId (first :: rest) row = true :=
      (is_selected_iff _ _ _).mpr ⟨place, trashed, operation, List.mem_cons.mpr (.inl (List.mem_singleton.mp member)), tag⟩
    have gone : isSelected namespaceId rest { row with state := .purged } ≠ true := by
      intro again
      obtain ⟨_, impossible, _⟩ := (is_selected_iff _ _ _).mp again
      cases impossible
    rw [purgeRow, if_pos here, purgeSelected, if_neg gone, purgeSelected, if_pos both]
  · have same : isSelected namespaceId (first :: rest) row = isSelected namespaceId rest row := by
      rw [Bool.eq_iff_iff, is_selected_iff, is_selected_iff]
      refine and_congr_right fun place => and_congr_right fun trashed => ?_
      constructor
      · rintro ⟨operation, member, tag⟩
        rcases List.mem_cons.mp member with rfl | later
        · exact absurd ((is_selected_iff _ _ _).mpr ⟨place, trashed, operation, List.mem_singleton_self _, tag⟩) here
        · exact ⟨operation, later, tag⟩
      · rintro ⟨operation, later, tag⟩
        exact ⟨operation, List.mem_cons_of_mem _ later, tag⟩
    rw [purgeRow, if_neg here, purgeSelected, purgeSelected, same]

theorem purge_fold_revisions (namespaceId : Uuid) (selected : List Uuid) (db : Database) (id : String) :
    (selected.foldl (purgeOperation namespaceId) db).revisions[id]? = db.revisions[id]?.map (purgeSelected namespaceId selected) := by
  induction selected generalizing db with
  | nil =>
      have kept : purgeSelected namespaceId [] = fun row => row := by
        funext row
        have outside : isSelected namespaceId [] row ≠ true := by
          rw [Ne, is_selected_iff]
          rintro ⟨_, _, _, impossible, _⟩
          cases impossible
        exact if_neg outside
      rw [List.foldl_nil, kept, Option.map_id']
  | cons first rest ih =>
      rw [List.foldl_cons, ih, purgeOperation, Std.ExtTreeMap.getElem?_map, Option.map_map]
      exact congrArg (Option.map · db.revisions[id]?) (funext (purge_selected_cons namespaceId first rest))

def purgeOperationRow (namespaceId : Uuid) (selected : List Uuid) (id : Uuid) (row : TrashOperationRow) : TrashOperationRow :=
  if id ∈ selected ∧ row.namespaceId = namespaceId ∧ row.state = .active then { row with state := .purged } else row

theorem purge_fold_operations (namespaceId : Uuid) (selected : List Uuid) (db : Database) (id : Uuid) :
    (selected.foldl (purgeOperation namespaceId) db).trashOperations[id]? =
      db.trashOperations[id]?.map (purgeOperationRow namespaceId selected id) := by
  induction selected generalizing db with
  | nil =>
      have kept : purgeOperationRow namespaceId [] id = fun row => row := funext fun row => if_neg fun both => nomatch both.1
      rw [List.foldl_nil, kept, Option.map_id']
  | cons first rest ih =>
      rw [List.foldl_cons, ih, purgeOperation, Keyed.lookup_modify]
      by_cases same : id = first
      · rw [if_pos same, Option.map_map]
        refine congrArg (Option.map · db.trashOperations[id]?) (funext fun row => ?_)
        have listed : id ∈ first :: rest := List.mem_cons.mpr (.inl same)
        by_cases fits : row.namespaceId = namespaceId ∧ row.state = .active
        · simp only [Function.comp_apply, purgeOperationRow, fits, listed, and_self, if_true, reduceCtorEq, and_false, if_false]
        · simp only [Function.comp_apply, purgeOperationRow, fits, and_false, if_false]
      · rw [if_neg same]
        refine congrArg (Option.map · db.trashOperations[id]?) (funext fun row => ?_)
        simp only [purgeOperationRow, List.mem_cons, same, false_or]

theorem purge_fold_roots (namespaceId : Uuid) (selected : List Uuid) (db : Database) (id : String) (root : RevisionRootRow)
    (stored : (selected.foldl (purgeOperation namespaceId) db).revisionRoots[id]? = some root) :
    db.revisionRoots[id]? = some root := by
  induction selected generalizing db with
  | nil => exact stored
  | cons first rest ih =>
      rw [List.foldl_cons] at stored
      have kept := ih (purgeOperation namespaceId db first) stored
      rw [purgeOperation, Std.ExtTreeMap.getElem?_filter'] at kept
      exact (Option.filter_eq_some_iff.mp kept).1

section Purge

variable (db after : Database) (namespaceId : Uuid) (selected : List Uuid) (inv : HistoryInv db)
  (effect : PurgeEffect db after namespaceId selected)

theorem purge_selected_place (row : RevisionRow) :
    (purgeSelected namespaceId selected row).namespaceId = row.namespaceId ∧
      (purgeSelected namespaceId selected row).parentRevision = row.parentRevision ∧
      (purgeSelected namespaceId selected row).trashOperationId = row.trashOperationId := by
  unfold purgeSelected
  split <;> exact ⟨rfl, rfl, rfl⟩

theorem purge_selected_active (row : RevisionRow) :
    (purgeSelected namespaceId selected row).state = .active ↔ row.state = .active := by
  unfold purgeSelected
  split
  · next chosen =>
      rw [((is_selected_iff _ _ _).mp chosen).2.1]
      exact iff_of_false nofun nofun
  · exact Iff.rfl

include effect

theorem purge_lookup (id : String) : after.revisions[id]? = db.revisions[id]?.map (purgeSelected namespaceId selected) := by
  rw [effect.revisions, purge_fold_revisions]

theorem purge_operations (operationId : Uuid) :
    after.trashOperations[operationId]? = db.trashOperations[operationId]?.map
      (purgeOperationRow namespaceId selected operationId) := by
  rw [effect.operations, purge_fold_operations]

-- What is active afterwards was active before and is not among the selected.
theorem purge_active_operation (operationId : Uuid) (found : TrashOperationRow)
    (stored : after.trashOperations[operationId]? = some found) (live : found.state = .active) :
    db.trashOperations[operationId]? = some found ∧ (found.namespaceId = namespaceId → operationId ∉ selected) := by
  rw [purge_operations db after namespaceId selected effect] at stored
  obtain ⟨before, known, rfl⟩ := Option.map_eq_some_iff.mp stored
  unfold purgeOperationRow at live ⊢
  split at live
  · cases live
  · next kept =>
      rw [if_neg kept]
      exact ⟨known, fun place member => kept ⟨member, place, live⟩⟩

theorem purge_tags (operationId : Uuid) (id : String) : Tagged after operationId id ↔ Tagged db operationId id := by
  have lookup := purge_lookup db after namespaceId selected effect
  constructor
  · rintro ⟨new, stored, tag⟩
    obtain ⟨row, before, rfl⟩ := retag_row db after (fun _ => purgeSelected namespaceId selected) lookup id new stored
    exact ⟨row, before, (purge_selected_place namespaceId selected row).2.2.symm.trans tag⟩
  · rintro ⟨row, before, tag⟩
    exact ⟨_, retag_stored db after (fun _ => purgeSelected namespaceId selected) lookup id row before,
      (purge_selected_place namespaceId selected row).2.2.trans tag⟩

theorem purge_active (space : Uuid) (id : String) : ActiveIn after space id ↔ ActiveIn db space id := by
  have lookup := purge_lookup db after namespaceId selected effect
  constructor
  · rintro ⟨new, stored, place, live⟩
    obtain ⟨row, before, rfl⟩ := retag_row db after (fun _ => purgeSelected namespaceId selected) lookup id new stored
    exact ⟨row, before, (purge_selected_place namespaceId selected row).1.symm.trans place,
      (purge_selected_active namespaceId selected row).mp live⟩
  · rintro ⟨row, before, place, live⟩
    exact ⟨_, retag_stored db after (fun _ => purgeSelected namespaceId selected) lookup id row before,
      (purge_selected_place namespaceId selected row).1.trans place, (purge_selected_active namespaceId selected row).mpr live⟩

theorem purge_parents : parentOf after = parentOf db :=
  retag_parents db after (fun _ => purgeSelected namespaceId selected) (purge_lookup db after namespaceId selected effect)
    fun _ row => (purge_selected_place namespaceId selected row).2.1

include inv

-- The dependency check looks one revision below each remaining operation. Walking
-- down, the next revision is active, and then all below it are, or it is tagged by
-- another operation that is not selected, whose own new head is checked in turn.
theorem purge_spares (count : Nat) (operationId : Uuid) (operation : TrashOperationRow) (path : List String)
    (short : path.length ≤ count) (known : db.trashOperations[operationId]? = some operation) (live : operation.state = .active)
    (place : operation.namespaceId = namespaceId) (outside : operationId ∉ selected)
    (walk : Path (parentOf db) operation.newHead path none) (unpurged : ∀ id ∈ path, Unpurged db namespaceId id) :
    ∀ id ∈ path, ∀ row, db.revisions[id]? = some row → isSelected namespaceId selected row ≠ true := by
  induction count generalizing operationId operation path with
  | zero =>
      intro id member
      rw [List.length_eq_zero_iff.mp (Nat.le_zero.mp short)] at member
      cases member
  | succ count ih =>
      cases path with
      | nil => exact fun id member => absurd member List.not_mem_nil
      | cons top rest =>
          have newHead := walk.1
          obtain ⟨row, stored, owned, notPurged⟩ := unpurged top List.mem_cons_self
          rw [newHead] at walk
          by_cases active : row.state = .active
          · obtain ⟨state, current⟩ := inv.owned top row stored
            obtain ⟨chain, chainWalk, members⟩ := inv.chain row.namespaceId state.1 state.2 current
            obtain ⟨_, after, split, below⟩ :=
              path_from _ _ _ chain top chainWalk ((members top).mpr ⟨row, stored, rfl, active⟩)
            have same := path_unique _ _ _ _ walk below
            intro id member row found chosen
            have inside : id ∈ chain := by
              rw [split, List.mem_append, ← same]
              exact .inr member
            obtain ⟨other, again, _, alive⟩ := (members id).mp inside
            rw [found] at again
            cases again
            rw [((is_selected_iff _ _ _).mp chosen).2.1] at alive
            cases alive
          · have tag : row.trashOperationId ≠ none := mt (inv.untagged top row stored).mpr active
            obtain ⟨next, tagged⟩ := Option.ne_none_iff_exists'.mp tag
            obtain ⟨nextOperation, nextKnown, nextPlace, fits⟩ := inv.tagged top row stored next tagged
            have trashed : row.state = .trashed ∧ nextOperation.state = .active := by
              rcases fits with both | both
              · exact both
              · exact absurd both.1 notPurged
            have nextOutside : next ∉ selected := by
              intro member
              have listed : (operationId, operation) ∈ activeOperations db namespaceId := by
                refine List.mem_filter.mpr ⟨Std.ExtTreeMap.mem_toList_iff_getElem?_eq_some.mpr known, ?_⟩
                rw [Bool.and_eq_true, decide_eq_true_eq, decide_eq_true_eq]
                exact ⟨place, live⟩
              refine effect.independent _ listed outside top newHead ?_
              refine List.mem_map.mpr ⟨(top, row), List.mem_filter.mpr
                ⟨Std.ExtTreeMap.mem_toList_iff_getElem?_eq_some.mpr stored, ?_⟩, rfl⟩
              exact (is_selected_iff _ _ _).mpr ⟨owned, trashed.1, next, member, tagged⟩
            obtain ⟨stretch, stretchWalk, members⟩ := inv.stretch next nextOperation nextKnown trashed.2
            obtain ⟨before, middle, split, upper⟩ :=
              path_from _ _ _ stretch top stretchWalk ((members top).mpr ⟨row, stored, tagged⟩)
            obtain ⟨lower, joined, lowerWalk⟩ := path_prefix _ _ _ _ _ upper walk
            have shorter : lower.length ≤ count := by
              have lengths := congrArg List.length joined
              simp only [List.length_cons, List.length_append] at lengths short
              omega
            have deeper := ih next nextOperation lower shorter nextKnown trashed.2 (nextPlace.trans owned) nextOutside lowerWalk
              fun id member => unpurged id (joined ▸ List.mem_append_right _ member)
            intro id member row found chosen
            rw [joined, List.mem_append] at member
            rcases member with member | member
            · have inside : id ∈ stretch := by
                rw [split, List.mem_append]
                exact .inr member
              obtain ⟨other, again, own⟩ := (members id).mp inside
              rw [found] at again
              cases again
              obtain ⟨_, _, operation, listed, same⟩ := (is_selected_iff _ _ _).mp chosen
              rw [own] at same
              cases same
              exact nextOutside listed
            · exact deeper id member row found chosen

theorem purge_ancestry (operationId : Uuid) (found : TrashOperationRow)
    (stored : after.trashOperations[operationId]? = some found) (live : found.state = .active) :
    ∃ path, Path (parentOf after) found.oldHead path none ∧ ∀ id ∈ path, Unpurged after found.namespaceId id := by
  have lookup := purge_lookup db after namespaceId selected effect
  obtain ⟨known, outside⟩ := purge_active_operation db after namespaceId selected effect operationId found stored live
  obtain ⟨path, walk, members⟩ := inv.ancestry operationId found known live
  obtain ⟨above, aboveWalk, tags⟩ := inv.stretch operationId found known live
  obtain ⟨below, split, belowWalk⟩ := path_prefix _ _ _ above path aboveWalk walk
  rw [purge_parents db after namespaceId selected effect]
  refine ⟨path, walk, fun id member => ?_⟩
  obtain ⟨row, before, place, notPurged⟩ := members id member
  have spared : isSelected namespaceId selected row ≠ true := by
    by_cases same : found.namespaceId = namespaceId
    · rw [split, List.mem_append] at member
      rcases member with member | member
      · obtain ⟨other, again, tag⟩ := (tags id).mp member
        rw [before] at again
        cases again
        intro chosen
        obtain ⟨_, _, operation, listed, tagged⟩ := (is_selected_iff _ _ _).mp chosen
        rw [tag] at tagged
        cases tagged
        exact outside same listed
      · have unpurged : ∀ id ∈ below, Unpurged db namespaceId id := by
          intro id inside
          rw [← same]
          exact members id (split ▸ List.mem_append_right _ inside)
        exact purge_spares db after namespaceId selected inv effect below.length operationId found below le_rfl known live same
          (outside same) belowWalk unpurged id member row before
    · intro chosen
      exact same (place.symm.trans ((is_selected_iff _ _ _).mp chosen).1)
  have stored := retag_stored db after (fun _ => purgeSelected namespaceId selected) lookup id row before
  rw [purgeSelected, if_neg spared] at stored
  exact ⟨row, stored, place, notPurged⟩

theorem purge_fits (id : String) (new : RevisionRow) (stored : after.revisions[id]? = some new) :
    (new.state = .active ↔ new.trashOperationId = none) ∧ ∀ tag, new.trashOperationId = some tag →
      ∃ found, after.trashOperations[tag]? = some found ∧ TagFits new found := by
  have lookup := purge_lookup db after namespaceId selected effect
  obtain ⟨row, before, rfl⟩ := retag_row db after (fun _ => purgeSelected namespaceId selected) lookup id new stored
  obtain ⟨place, _, sameTag⟩ := purge_selected_place namespaceId selected row
  refine ⟨?_, fun tag tagged => ?_⟩
  · rw [purge_selected_active, sameTag]
    exact inv.untagged id row before
  · rw [sameTag] at tagged
    obtain ⟨operation, known, owner, fits⟩ := inv.tagged id row before tag tagged
    refine ⟨purgeOperationRow namespaceId selected tag operation, ?_, ?_⟩
    · rw [purge_operations db after namespaceId selected effect, known, Option.map_some]
    · by_cases chosen : isSelected namespaceId selected row = true
      · obtain ⟨home, trashed, listed, member, same⟩ := (is_selected_iff _ _ _).mp chosen
        rw [tagged] at same
        cases same
        have active : operation.state = .active := by
          rcases fits with both | both
          · exact both.2
          · rw [trashed] at both
            exact nomatch both.1
        rw [purgeSelected, if_pos chosen, purgeOperationRow, if_pos ⟨member, owner.trans home, active⟩]
        exact ⟨owner, .inr ⟨rfl, rfl⟩⟩
      · have kept : ¬ (tag ∈ selected ∧ operation.namespaceId = namespaceId ∧ operation.state = .active) := by
          rintro ⟨member, home, active⟩
          refine chosen ((is_selected_iff _ _ _).mpr ⟨owner.symm.trans home, ?_, tag, member, tagged⟩)
          rcases fits with both | both
          · exact both.1
          · rw [active] at both
            exact nomatch both.2
        rw [purgeSelected, if_neg chosen, purgeOperationRow, if_neg kept]
        exact ⟨owner, fits⟩

theorem purge_keeps : HistoryInv after := by
  have lookup := purge_lookup db after namespaceId selected effect
  have parents := purge_parents db after namespaceId selected effect
  have fits := purge_fits db after namespaceId selected inv effect
  refine ⟨?_, fun space head epoch current => ?_, fun id new stored => (fits id new stored).1,
    fun id new stored => (fits id new stored).2, fun operationId found stored live => ?_,
    purge_ancestry db after namespaceId selected inv effect, ?_⟩
  · exact retag_owned db after (fun _ => purgeSelected namespaceId selected) lookup inv
      (fun _ row => (purge_selected_place namespaceId selected row).1) fun id state before => ⟨state, (effect.heads id).trans before⟩
  · rw [effect.heads] at current
    obtain ⟨path, walk, members⟩ := inv.chain space head epoch current
    rw [parents]
    exact ⟨path, walk, fun id => (members id).trans (purge_active db after namespaceId selected effect space id).symm⟩
  · obtain ⟨known, _⟩ := purge_active_operation db after namespaceId selected effect operationId found stored live
    obtain ⟨path, walk, members⟩ := inv.stretch operationId found known live
    rw [parents]
    exact ⟨path, walk, fun id => (members id).trans (purge_tags db after namespaceId selected effect operationId id).symm⟩
  · apply retag_roots db after (fun _ => purgeSelected namespaceId selected) lookup inv
    intro id root stored
    rw [effect.roots] at stored
    exact purge_fold_roots namespaceId selected db id root stored

end Purge

theorem history_step_keeps (db after : Database) (moved : HistoryStep db after) (inv : HistoryInv db) : HistoryInv after := by
  cases moved with
  | quiet effect => exact quiet_keeps db after inv effect
  | create id effect => exact create_keeps db after inv id effect
  | commit namespaceId head epoch id row effect => exact commit_keeps db after namespaceId head epoch id row effect inv
  | truncate namespaceId head newHead epoch removed operationId operation effect =>
      exact truncate_keeps db after namespaceId head newHead epoch removed operationId operation inv effect
  | restore namespaceId head epoch operationId operation effect =>
      exact restore_keeps db after namespaceId head epoch operationId operation inv effect
  | purge namespaceId selected effect => exact purge_keeps db after namespaceId selected inv effect

theorem run_inv (lib : Primitives) (calls : List Call) : HistoryInv (runCalls lib calls) :=
  run_invariant lib HistoryInv initialized_inv history_step_keeps calls

end SessionSync.Server
