import SessionSync.Server.HistoryTrash

set_option autoImplicit false

namespace SessionSync.Server

open SessionSync.Core Checked Chain

section Restore

variable (db after : Database) (namespaceId : Uuid) (head : Option String) (epoch : UInt64) (operationId : Uuid)
  (operation : TrashOperationRow) (inv : HistoryInv db)
  (effect : RestoreEffect db after namespaceId head epoch operationId operation)

theorem reactivate_tagged (row : RevisionRow) (tag : row.trashOperationId = some operationId) :
    reactivate operationId row = { row with state := .active, trashOperationId := none } := if_pos tag

theorem reactivate_other (row : RevisionRow) (tag : row.trashOperationId ≠ some operationId) :
    reactivate operationId row = row := if_neg tag

theorem reactivate_place (row : RevisionRow) :
    (reactivate operationId row).namespaceId = row.namespaceId ∧
    (reactivate operationId row).parentRevision = row.parentRevision := by
  unfold reactivate
  split <;> exact ⟨rfl, rfl⟩

include effect

theorem restore_lookup (id : String) : after.revisions[id]? = db.revisions[id]?.map (reactivate operationId) := by
  rw [effect.revisions, Std.ExtTreeMap.getElem?_map]

theorem restore_parents : parentOf after = parentOf db :=
  retag_parents db after (fun _ => reactivate operationId)
    (restore_lookup db after namespaceId head epoch operationId operation effect) fun _ row => (reactivate_place operationId row).2

theorem restore_operations (other : Uuid) (found : TrashOperationRow) (stored : after.trashOperations[other]? = some found)
    (live : found.state = .active) : other ≠ operationId ∧ db.trashOperations[other]? = some found := by
  rw [effect.operations, Keyed.lookup_insert] at stored
  by_cases same : other = operationId
  · rw [if_pos same] at stored
    cases stored
    cases live
  · rw [if_neg same] at stored
    exact ⟨same, stored⟩

theorem restore_unpurged (space : Uuid) (id : String) (unpurged : Unpurged db space id) : Unpurged after space id := by
  have lookup := restore_lookup db after namespaceId head epoch operationId operation effect
  apply retag_unpurged db after (fun _ => reactivate operationId) lookup (fun _ row => (reactivate_place operationId row).1) space id
    _ unpurged
  intro row _ live
  by_cases tag : row.trashOperationId = some operationId
  · rw [reactivate_tagged operationId row tag]
    exact nofun
  · rw [reactivate_other operationId row tag]
    exact live

theorem restore_tags (other : Uuid) (different : other ≠ operationId) (id : String) :
    Tagged after other id ↔ Tagged db other id := by
  have lookup := restore_lookup db after namespaceId head epoch operationId operation effect
  constructor
  · rintro ⟨new, stored, tag⟩
    obtain ⟨row, before, rfl⟩ := retag_row db after (fun _ => reactivate operationId) lookup id new stored
    by_cases own : row.trashOperationId = some operationId
    · rw [reactivate_tagged operationId row own] at tag
      cases tag
    · rw [reactivate_other operationId row own] at tag
      exact ⟨row, before, tag⟩
  · rintro ⟨row, before, tag⟩
    have own : row.trashOperationId ≠ some operationId := by
      rw [tag]
      exact fun same => different (Option.some.inj same)
    have stored := retag_stored db after (fun _ => reactivate operationId) lookup id row before
    rw [reactivate_other operationId row own] at stored
    exact ⟨row, stored, tag⟩

include inv

theorem restore_active (space : Uuid) (id : String) :
    ActiveIn after space id ↔ (space = namespaceId ∧ Tagged db operationId id) ∨ ActiveIn db space id := by
  have lookup := restore_lookup db after namespaceId head epoch operationId operation effect
  have owned : ∀ (row : RevisionRow), db.revisions[id]? = some row → row.trashOperationId = some operationId →
      row.namespaceId = namespaceId := by
    intro row before tag
    obtain ⟨found, known, same, _⟩ := inv.tagged id row before operationId tag
    rw [effect.stored] at known
    cases known
    exact same.symm.trans effect.owner
  constructor
  · rintro ⟨new, stored, place, live⟩
    obtain ⟨row, before, rfl⟩ := retag_row db after (fun _ => reactivate operationId) lookup id new stored
    by_cases own : row.trashOperationId = some operationId
    · rw [(reactivate_place operationId row).1, owned row before own] at place
      exact .inl ⟨place.symm, row, before, own⟩
    · rw [reactivate_other operationId row own] at place live
      exact .inr ⟨row, before, place, live⟩
  · rintro (⟨rfl, row, before, tag⟩ | ⟨row, before, place, live⟩)
    · have stored := retag_stored db after (fun _ => reactivate operationId) lookup id row before
      rw [reactivate_tagged operationId row tag] at stored
      exact ⟨_, stored, owned row before tag, rfl⟩
    · have own : row.trashOperationId ≠ some operationId := by
        rw [(inv.untagged id row before).mp live]
        exact nofun
      have stored := retag_stored db after (fun _ => reactivate operationId) lookup id row before
      rw [reactivate_other operationId row own] at stored
      exact ⟨row, stored, place, live⟩

theorem restore_chain (space : Uuid) (top : Option String) (later : UInt64)
    (current : getHeadState after space = some (top, later)) :
    ∃ path, Path (parentOf after) top path none ∧ ∀ id, id ∈ path ↔ ActiveIn after space id := by
  have active := restore_active db after namespaceId head epoch operationId operation inv effect space
  rw [restore_parents db after namespaceId head epoch operationId operation effect]
  rw [effect.heads] at current
  by_cases same : space = namespaceId
  · rw [if_pos same] at current
    cases current
    obtain ⟨above, walk, tags⟩ := inv.stretch operationId operation effect.stored effect.active
    obtain ⟨below, rest, members⟩ := inv.chain namespaceId head epoch effect.current
    rw [effect.newEnd] at walk
    refine ⟨above ++ below, (path_append _ _ _ _ _).mpr ⟨head, walk, rest⟩, fun id => ?_⟩
    rw [active, same, and_iff_right rfl, List.mem_append, tags, members]
  · rw [if_neg same] at current
    obtain ⟨path, walk, members⟩ := inv.chain space top later current
    refine ⟨path, walk, fun id => ?_⟩
    rw [members, active, or_iff_right fun both => same both.1]

theorem restore_fits (id : String) (new : RevisionRow) (stored : after.revisions[id]? = some new) :
    (new.state = .active ↔ new.trashOperationId = none) ∧ ∀ tag, new.trashOperationId = some tag →
      ∃ found, after.trashOperations[tag]? = some found ∧ TagFits new found := by
  have lookup := restore_lookup db after namespaceId head epoch operationId operation effect
  obtain ⟨row, before, rfl⟩ := retag_row db after (fun _ => reactivate operationId) lookup id new stored
  by_cases own : row.trashOperationId = some operationId
  · rw [reactivate_tagged operationId row own]
    exact ⟨iff_of_true rfl rfl, fun tag tagged => nomatch tagged⟩
  · rw [reactivate_other operationId row own]
    refine ⟨inv.untagged id row before, fun tag tagged => ?_⟩
    obtain ⟨found, known, fits⟩ := inv.tagged id row before tag tagged
    have different : tag ≠ operationId := fun same => own (same ▸ tagged)
    refine ⟨found, ?_, fits⟩
    rw [effect.operations, Keyed.lookup_insert, if_neg different, known]

theorem restore_keeps : HistoryInv after := by
  have lookup := restore_lookup db after namespaceId head epoch operationId operation effect
  have parents := restore_parents db after namespaceId head epoch operationId operation effect
  have operations := restore_operations db after namespaceId head epoch operationId operation effect
  have fits := restore_fits db after namespaceId head epoch operationId operation inv effect
  refine ⟨?_, restore_chain db after namespaceId head epoch operationId operation inv effect,
    fun id new stored => (fits id new stored).1, fun id new stored => (fits id new stored).2,
    fun other found stored live => ?_, fun other found stored live => ?_, ?_⟩
  · exact retag_owned db after (fun _ => reactivate operationId) lookup inv (fun _ row => (reactivate_place operationId row).1)
      (heads_known db after namespaceId _ effect.heads)
  · obtain ⟨different, known⟩ := operations other found stored live
    obtain ⟨path, walk, members⟩ := inv.stretch other found known live
    rw [parents]
    refine ⟨path, walk, fun id => (members id).trans ?_⟩
    exact (restore_tags db after namespaceId head epoch operationId operation effect other different id).symm
  · obtain ⟨_, known⟩ := operations other found stored live
    obtain ⟨path, walk, members⟩ := inv.ancestry other found known live
    rw [parents]
    refine ⟨path, walk, fun id member => ?_⟩
    exact restore_unpurged db after namespaceId head epoch operationId operation effect _ id (members id member)
  · exact retag_roots db after (fun _ => reactivate operationId) lookup inv fun id root stored => effect.roots ▸ stored

end Restore

end SessionSync.Server
