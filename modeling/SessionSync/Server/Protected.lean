import SessionSync.Server.HistoryPurge

set_option autoImplicit false

namespace SessionSync.Server

open SessionSync.Core Checked

theorem millis_lt (now : Nanos) (limit : Millis) : millis now < limit ↔ now < limit * 1000000 :=
  Int.ediv_lt_iff_lt_mul (by decide)

-- A row that the recursive query starts from: active, or in the trash of an
-- operation that has neither been undone nor expired.
def Shielded (operations : Std.ExtTreeMap Uuid TrashOperationRow) (now : Nanos) (row : RevisionRow) : Prop :=
  row.state = .active ∨ (row.state = .trashed ∧ ∃ operationId operation, row.trashOperationId = some operationId ∧
    operations[operationId]? = some operation ∧ operation.state = .active ∧ millis now < operation.expiresAt)

theorem is_protected_iff (db : Database) (now : Nanos) (id : String) :
    isProtected db now id = true ↔ ∃ row, db.revisions[id]? = some row ∧ Shielded db.trashOperations now row := by
  unfold isProtected Shielded
  cases stored : db.revisions[id]? with
  | none => exact iff_of_false nofun fun ⟨_, impossible, _⟩ => nomatch impossible
  | some row =>
      simp only [Option.some.injEq, exists_eq_left', Bool.or_eq_true, Bool.and_eq_true, decide_eq_true_eq]
      refine or_congr_right (and_congr_right fun _ => ?_)
      cases tag : row.trashOperationId with
      | none => exact iff_of_false nofun fun ⟨_, _, impossible, _⟩ => nomatch impossible
      | some operationId =>
          simp only [Option.bind_some, Option.some.injEq]
          cases known : db.trashOperations[operationId]? with
          | none =>
              refine iff_of_false nofun ?_
              rintro ⟨other, operation, same, found, _⟩
              rw [← same, known] at found
              cases found
          | some operation =>
              simp only [Bool.and_eq_true, decide_eq_true_eq]
              constructor
              · intro live
                exact ⟨operationId, operation, rfl, known, live⟩
              · rintro ⟨other, found, same, stored, live⟩
                rw [← same, known] at stored
                cases stored
                exact live

theorem protected_tables (db after : Database) (revisions : after.revisions = db.revisions)
    (operations : after.trashOperations = db.trashOperations) (now : Nanos) (id : String) :
    isProtected after now id = isProtected db now id := by
  rw [isProtected, isProtected, revisions, operations]

-- Waiting only ever ends a protection.
theorem protected_earlier (db : Database) (now later : Nanos) (order : now ≤ later) (id : String)
    (shielded : isProtected db later id = true) : isProtected db now id = true := by
  rw [is_protected_iff] at shielded ⊢
  obtain ⟨row, stored, live | ⟨trashed, operationId, operation, tag, known, active, unexpired⟩⟩ := shielded
  · exact ⟨row, stored, .inl live⟩
  · refine ⟨row, stored, .inr ⟨trashed, operationId, operation, tag, known, active, ?_⟩⟩
    exact lt_of_le_of_lt (Int.ediv_le_ediv (by decide) order) unexpired

theorem commit_protected (db after : Database) (namespaceId : Uuid) (head : Option String) (epoch : UInt64) (new : String)
    (row : RevisionRow) (effect : CommitEffect db after namespaceId head epoch new row) (now : Nanos) (id : String)
    (shielded : isProtected after now id = true) : id = new ∨ isProtected db now id = true := by
  rw [is_protected_iff, commit_lookup db after namespaceId head epoch new row effect, effect.operations] at shielded
  rw [is_protected_iff]
  by_cases same : id = new
  · exact .inl same
  · rw [if_neg same] at shielded
    exact .inr shielded

theorem truncate_protected (db after : Database) (namespaceId : Uuid) (head newHead : Option String) (epoch : UInt64)
    (removed : List String) (operationId : Uuid) (operation : TrashOperationRow) (inv : HistoryInv db)
    (effect : TruncateEffect db after namespaceId head newHead epoch removed operationId operation) (now : Nanos) (id : String)
    (shielded : isProtected after now id = true) : isProtected db now id = true := by
  have lookup := truncate_lookup db after namespaceId head newHead epoch removed operationId operation effect
  rw [is_protected_iff] at shielded ⊢
  obtain ⟨new, stored, shield⟩ := shielded
  obtain ⟨row, before, rfl⟩ := retag_row db after _ lookup id new stored
  refine ⟨row, before, ?_⟩
  by_cases member : id ∈ removed
  · obtain ⟨live, same, _, active⟩ :=
      (truncate_walk db after namespaceId head newHead epoch removed operationId operation effect).2 id member
    rw [before] at same
    cases same
    exact .inl active
  · rw [truncate_row_outside removed operationId id row member] at shield
    rcases shield with live | ⟨trashed, tag, found, tagged, known, rest⟩
    · exact .inl live
    · refine .inr ⟨trashed, tag, found, tagged, ?_, rest⟩
      have other : tag ≠ operationId := by
        intro same
        subst same
        exact truncate_unused db after namespaceId head newHead epoch removed tag operation inv effect id ⟨row, before, tagged⟩
      rw [effect.operations, Keyed.lookup_insert, if_neg other] at known
      exact known

-- Restoring is only allowed before the expiry, so what it brings back was protected.
theorem restore_protected (db after : Database) (namespaceId : Uuid) (head : Option String) (epoch : UInt64) (operationId : Uuid)
    (operation : TrashOperationRow) (inv : HistoryInv db)
    (effect : RestoreEffect db after namespaceId head epoch operationId operation) (now : Nanos)
    (unexpired : now < operation.expiresAt * 1000000) (id : String) (shielded : isProtected after now id = true) :
    isProtected db now id = true := by
  have lookup := restore_lookup db after namespaceId head epoch operationId operation effect
  rw [is_protected_iff] at shielded ⊢
  obtain ⟨new, stored, shield⟩ := shielded
  obtain ⟨row, before, rfl⟩ := retag_row db after (fun _ => reactivate operationId) lookup id new stored
  refine ⟨row, before, ?_⟩
  by_cases own : row.trashOperationId = some operationId
  · obtain ⟨found, known, _, fits⟩ := inv.tagged id row before operationId own
    rw [effect.stored] at known
    cases known
    rcases fits with ⟨trashed, _⟩ | ⟨_, purged⟩
    · exact .inr ⟨trashed, operationId, operation, own, effect.stored, effect.active,
        (millis_lt now operation.expiresAt).mpr unexpired⟩
    · rw [effect.active] at purged
      cases purged
  · rw [reactivate_other operationId row own] at shield
    rcases shield with live | ⟨trashed, tag, found, tagged, known, rest⟩
    · exact .inl live
    · refine .inr ⟨trashed, tag, found, tagged, ?_, rest⟩
      have other : tag ≠ operationId := fun same => own (same ▸ tagged)
      rw [effect.operations, Keyed.lookup_insert, if_neg other] at known
      exact known

theorem purge_fold_roots_kept (namespaceId : Uuid) (selected : List Uuid) (db : Database) (id : String)
    (outside : ∀ (row : RevisionRow), db.revisions[id]? = some row → isSelected namespaceId selected row = false) :
    (selected.foldl (purgeOperation namespaceId) db).revisionRoots[id]? = db.revisionRoots[id]? := by
  induction selected generalizing db with
  | nil => rfl
  | cons first rest ih =>
      have apart : ∀ (row : RevisionRow), db.revisions[id]? = some row →
          isSelected namespaceId [first] row = false ∧ isSelected namespaceId rest row = false := by
        intro row stored
        have none_ := outside row stored
        rw [Bool.eq_false_iff, Ne, is_selected_iff] at none_
        constructor
        · rw [Bool.eq_false_iff, Ne, is_selected_iff]
          intro ⟨place, trashed, operation, member, tag⟩
          exact none_ ⟨place, trashed, operation, List.mem_cons.mpr (.inl (List.mem_singleton.mp member)), tag⟩
        · rw [Bool.eq_false_iff, Ne, is_selected_iff]
          intro ⟨place, trashed, operation, member, tag⟩
          exact none_ ⟨place, trashed, operation, List.mem_cons_of_mem _ member, tag⟩
      rw [List.foldl_cons, ih]
      · rw [purgeOperation, Std.ExtTreeMap.getElem?_filter']
        have kept : db.revisions[id]?.any (isSelected namespaceId [first]) = false := by
          cases stored : db.revisions[id]? with
          | none => rfl
          | some row => exact (apart row stored).1
        rw [kept]
        cases db.revisionRoots[id]? <;> rfl
      · intro row stored
        rw [purgeOperation, Std.ExtTreeMap.getElem?_map] at stored
        obtain ⟨old, before, same⟩ := Option.map_eq_some_iff.mp stored
        rw [purgeRow, (apart old before).1] at same
        exact same ▸ (apart old before).2

theorem purge_protected (db after : Database) (namespaceId : Uuid) (selected : List Uuid)
    (effect : PurgeEffect db after namespaceId selected) (now : Nanos) (id : String) (shielded : isProtected after now id = true) :
    isProtected db now id = true ∧ after.revisionRoots[id]? = db.revisionRoots[id]? := by
  have lookup := purge_lookup db after namespaceId selected effect
  rw [is_protected_iff] at shielded ⊢
  obtain ⟨new, stored, shield⟩ := shielded
  obtain ⟨row, before, rfl⟩ := retag_row db after (fun _ => purgeSelected namespaceId selected) lookup id new stored
  have outside : isSelected namespaceId selected row = false := by
    by_contra chosen
    rw [Bool.not_eq_false] at chosen
    rw [purgeSelected, if_pos chosen] at shield
    rcases shield with live | ⟨trashed, _⟩
    · cases live
    · cases trashed
  constructor
  · refine ⟨row, before, ?_⟩
    rw [purgeSelected, if_neg (Bool.eq_false_iff.mp outside)] at shield
    rcases shield with live | ⟨trashed, tag, found, tagged, known, active, unexpired⟩
    · exact .inl live
    · rw [effect.operations, purge_fold_operations] at known
      obtain ⟨old, oldKnown, rfl⟩ := Option.map_eq_some_iff.mp known
      unfold purgeOperationRow at active unexpired
      split at active
      · cases active
      · next kept =>
          rw [if_neg kept] at unexpired
          exact .inr ⟨trashed, tag, old, tagged, oldKnown, active, unexpired⟩
  · rw [effect.roots]
    apply purge_fold_roots_kept
    intro other same
    rw [before] at same
    cases same
    exact outside

end SessionSync.Server
