import SessionSync.Storage.PurgeFinish

set_option autoImplicit false

namespace SessionSync.Storage

open SessionSync.Core Checked Local

def Readable (codec : PurgeCodec) (journal : LocalTrashPurgeJournalV4) : Prop := fileLength (codec.journalText journal) ≤ maxRootBytes

def Ended (status : LocalTrashPurgeStatusV4) : Prop := status = .completed ∨ status = .rolledBack

-- Every purge of the repository has come to its end.
def SettledPurges (codec : PurgeCodec) (start : PurgeRepository) : Prop :=
  ∀ (name : String) journal, start.purges[name]? = some journal →
  Readable codec journal ∧ journal.schemaVersion = 1 ∧ journal.repositoryRoot = codec.repositoryRoot ∧ Ended journal.status

-- The name that the purge draws is new.
structure FreshPurge (codec : PurgeCodec) (operation : String) (start : PurgeRepository) : Prop where
  unwritten : start.purges[operation]? = none
  unstaged : start.staging[stagingRootOf codec operation]? = none

section Recover

variable {codec : PurgeCodec} {start : PurgeRepository} {operation : String} {plan : LocalTrashPurgePlanV4}
    {repository : PurgeRepository}
  {crash : PurgeRepository → Prop}

theorem recover_checked (name : String) (journal : LocalTrashPurgeJournalV4) (stored : repository.purges[name]? = some journal)
    (version : journal.schemaVersion = 1) (root : journal.repositoryRoot = codec.repositoryRoot) (here : crash repository)
    (good : Unit → PurgeRepository → Prop) (blocked : Prop) (unreadable : ¬Readable codec journal → blocked) (faults : List Bool)
    (goes : ∀ faults, SafeAccess crash (resumePurge codec name journal) (comesTo faults good blocked) ⟨repository, faults⟩) :
    SafeAccess crash (recoverPurge codec name) (comesTo faults good blocked) ⟨repository, faults⟩ := by
  by_cases readable : Readable codec journal
  · apply comes_reads _ _ _ _ _ here journal
    · simp only [readPurgeJournal, bind_ok, found_ok, ensure_ok, pure_ok]
      exact ⟨journal, stored, (), readable, rfl⟩
    · exact fun faults => comes_passes _ _ ⟨version, root⟩ _ _ _ faults here (goes faults)
  · apply comes_then _ _ (fun _ _ => False)
    · refine comes_inspect _ _ _ repository faults here (fun other read => ?_) fun _ _ => unreadable readable
      simp only [readPurgeJournal, bind_ok, found_ok, ensure_ok, pure_ok] at read
      obtain ⟨found, there, _, small, _⟩ := read
      rw [stored, Option.some.injEq] at there
      exact readable (there ▸ small)
    · exact fun _ _ _ _ impossible => impossible.elim

theorem recover_ended (name : String) (journal : LocalTrashPurgeJournalV4) (stored : repository.purges[name]? = some journal)
    (version : journal.schemaVersion = 1) (root : journal.repositoryRoot = codec.repositoryRoot) (ended : Ended journal.status)
    (here : crash repository) (blocked : Prop) (unreadable : ¬Readable codec journal → blocked) (faults : List Bool) :
    SafeAccess crash (recoverPurge codec name) (comesTo faults (fun _ after => after = repository) blocked) ⟨repository, faults⟩ := by
  apply recover_checked name journal stored version root here _ blocked unreadable
  intro faults
  rcases ended with same | same <;> rw [resumePurge, same] <;> exact comes_done () _ _ repository faults here rfl

theorem own_checks (journal : LocalTrashPurgeJournalV4) (own : OwnPurge codec operation plan journal) :
    journal.schemaVersion = 1 ∧ journal.repositoryRoot = codec.repositoryRoot := by
  obtain ⟨_, _, rfl⟩ := own
  exact ⟨rfl, rfl⟩

-- One pass over the journals: what it does to the one purge that may be under way.
theorem recover_each_purge (settled : SettledPurges codec start)
    (frame : ∀ state, crash state → PurgeFrame codec start operation plan state) (ends : PurgeRepository → Prop)
    (kept : ∀ state, ends state → crash state) (blocked : Prop) (here : crash repository)
    (absent : repository.purges[operation]? = none → ends repository)
    (own : ∀ state journal faults, crash state → repository.purges[operation]? = some journal →
    state.purges[operation]? = some journal →
      SafeAccess crash (recoverPurge codec operation) (comesTo faults (fun _ after => ends after) blocked) ⟨state, faults⟩)
        (faults : List Bool) :
    SafeAccess crash (recoverLocalTrashPurges codec) (comesTo faults (fun _ after => ends after) blocked) ⟨repository, faults⟩ := by
  apply comes_reads _ _ _ _ _ here repository.purges.keys rfl
  intro faults
  have listed : ∀ name, name ∈ repository.purges.keys ↔ ∃ journal, repository.purges[name]? = some journal := by
    intro name
    rw [Std.ExtTreeMap.mem_keys, Std.ExtTreeMap.mem_iff_isSome_getElem?, Option.isSome_iff_exists]
  have loop := comes_for_each (recoverPurge codec) (fun rest state => crash state ∧ rest.Nodup ∧
      (∀ name ∈ rest, name ≠ operation → ∃ journal, start.purges[name]? = some journal) ∧
      (operation ∈ rest ∧ state.purges[operation]? = repository.purges[operation]? ∧
        (∃ journal, repository.purges[operation]? = some journal) ∨
        operation ∉ rest ∧ ends state)) blocked (fun name rest state faults inv => ?_)
          (fun state inv => inv.1) repository.purges.keys repository faults
    ⟨here, Std.ExtTreeMap.nodup_keys, fun name member apart => ?_, ?_⟩
  · refine comes_mono _ _ _ _ _ _ _ (fun _ state _ inv => ?_) id loop
    rcases inv.2.2.2 with coming | passed
    · exact absurd coming.1 List.not_mem_nil
    · exact passed.2
  · obtain ⟨now, distinct, known, course⟩ := inv
    obtain ⟨fresh, rests⟩ := List.nodup_cons.mp distinct
    by_cases mine : name = operation
    · subst mine
      rcases course with ⟨_, same, journal, stored⟩ | passed
      · refine comes_mono _ _ _ _ _ _ _ (fun _ after _ done => ?_) id (own state journal faults now stored (same.trans stored))
        exact ⟨kept after done, rests, fun other member apart => known other (List.mem_cons_of_mem _ member) apart,
          .inr ⟨fresh, done⟩⟩
      · exact absurd List.mem_cons_self passed.1
    · obtain ⟨journal, stored⟩ := known name List.mem_cons_self mine
      obtain ⟨readable, version, root, ended⟩ := settled name journal stored
      have there := ((frame state now).others name mine).trans stored
      refine comes_mono _ _ _ _ _ _ _ (fun _ after _ same => ?_) id
        (recover_ended name journal there version root ended now blocked (fun unreadable => absurd readable unreadable) faults)
      subst same
      refine ⟨now, rests, fun other member apart => known other (List.mem_cons_of_mem _ member) apart, ?_⟩
      rcases course with ⟨coming, left⟩ | passed
      · exact .inl ⟨(List.mem_cons.mp coming).resolve_left (Ne.symm mine), left⟩
      · exact .inr ⟨fun member => passed.1 (List.mem_cons_of_mem _ member), passed.2⟩
  · obtain ⟨journal, stored⟩ := (listed name).mp member
    exact ⟨journal, ((frame repository here).others name apart).symm.trans stored⟩
  · cases stored : repository.purges[operation]? with
    | none =>
        refine .inr ⟨fun member => ?_, absent stored⟩
        obtain ⟨journal, there⟩ := (listed operation).mp member
        rw [stored] at there
        cases there
    | some journal => exact .inl ⟨(listed operation).mpr ⟨journal, stored⟩, rfl, journal, rfl⟩

-- Nothing is under way.
def Rests (operation : String) (repository : PurgeRepository) : Prop :=
  ∀ journal, repository.purges[operation]? = some journal → journal.status = .rolledBack

theorem resume_opened (opened : Opened codec start operation plan repository) (journal : LocalTrashPurgeJournalV4)
    (stored : repository.purges[operation]? = some journal) (faults : List Bool) :
    SafeAccess (Opened codec start operation plan) (resumePurge codec operation journal)
      (comesTo faults (fun _ after => Opened codec start operation plan after ∧ Rests operation after) False) ⟨repository,
        faults⟩ := by
  have own := opened.own journal stored
  have rolls : journal.status = .preparing ∨ journal.status = .entriesStaged → SafeAccess (Opened codec start operation plan)
      (rollbackLocalTrashPurge codec operation journal)
      (comesTo faults (fun _ after => Opened codec start operation plan after ∧ Rests operation after) False) ⟨repository,
        faults⟩ := by
    intro status
    refine comes_mono _ _ _ _ _ _ _ (fun _ after _ back => ⟨back.toOpened, fun other found => ?_⟩) id
      (rollback_comes journal own ⟨opened.toUnmoved, journal, stored, status⟩ faults)
    obtain ⟨last, there, ended⟩ := back.journal
    rw [there, Option.some.injEq] at found
    exact found ▸ ended
  rcases opened.status journal stored with same | same | same
  · rw [resumePurge, same]
    exact rolls (.inl same)
  · rw [resumePurge, same]
    exact rolls (.inr same)
  · rw [resumePurge, same]
    refine comes_done () _ _ repository faults opened ⟨opened, fun other found => ?_⟩
    rw [stored, Option.some.injEq] at found
    exact found ▸ same

theorem recover_opened (settled : SettledPurges codec start) (opened : Opened codec start operation plan repository)
    (faults : List Bool) :
    SafeAccess (Opened codec start operation plan) (recoverLocalTrashPurges codec)
      (comesTo faults (fun _ after => Opened codec start operation plan after ∧ Rests operation after)
        (∃ journal, repository.purges[operation]? = some journal ∧ ¬Readable codec journal)) ⟨repository, faults⟩ := by
  refine recover_each_purge settled (fun state (now : Opened codec start operation plan state) => now.toPurgeFrame) _
    (fun state ends => ends.1) _ opened
    (fun absent => ?_)
    (fun state journal faults now first stored => ?_) faults
  · refine ⟨opened, fun journal stored => ?_⟩
    rw [absent] at stored
    cases stored
  · obtain ⟨version, root⟩ := own_checks journal (now.own journal stored)
    refine recover_checked operation journal stored version root now _ _
      (fun unreadable => ⟨journal, first, unreadable⟩) faults fun faults => ?_
    exact comes_mono _ _ _ _ _ _ _ (fun _ _ _ ends => ends) False.elim (resume_opened now journal stored faults)

variable {reached all : List StorageObjectRefV4}

theorem resume_closed (removes : Removes codec start plan reached all) (closed : Closed codec start operation plan repository)
    (journal : LocalTrashPurgeJournalV4) (stored : repository.purges[operation]? = some journal) (faults : List Bool) :
    SafeAccess (Closed codec start operation plan) (resumePurge codec operation journal)
      (comesTo faults (fun _ after => Finished codec start operation plan after) False) ⟨repository, faults⟩ := by
  have own := closed.own journal stored
  obtain ⟨other, found, course⟩ := closed.journal
  rw [stored, Option.some.injEq] at found
  subst found
  rcases course with committing | ⟨completed, emptied⟩
  · have finishes : SafeAccess (Closed codec start operation plan) (do
        let _ ← (finishLocalTrashPurge codec operation journal).mapError Prod.snd
        pure ()) (comesTo faults (fun _ after => Finished codec start operation plan after) False) ⟨repository, faults⟩ := by
      apply safe_then _ _ (comesTo faults (fun _ after => Finished codec start operation plan after) False)
      · apply Prog.safe_map_error
        refine Prog.safe_mono _ _ _ _ (fun outcome seen _ ends => ?_) (finish_safe removes journal own committing
          ⟨closed.toSwept, journal, stored, committing⟩ faults)
        cases outcome with
        | error failed => exact fun none_ => ends.2 none_
        | ok counted => exact ends
      · exact fun _ seen here ends => safe_done _ _ _ here ends
      · exact fun _ _ _ ends => ends
    rcases committing with same | same <;> rw [resumePurge, same] <;> exact finishes
  · rw [resumePurge, completed]
    have swept := closed.toSwept
    exact comes_done () _ _ repository faults closed ⟨swept, emptied, journal, stored, completed⟩

theorem recover_closed (removes : Removes codec start plan reached all) (settled : SettledPurges codec start)
    (closed : Closed codec start operation plan repository) (faults : List Bool) :
    SafeAccess (Closed codec start operation plan) (recoverLocalTrashPurges codec)
      (comesTo faults (fun _ after => Finished codec start operation plan after)
        (∃ journal, repository.purges[operation]? = some journal ∧ ¬Readable codec journal)) ⟨repository, faults⟩ := by
  refine recover_each_purge settled (fun state (now : Closed codec start operation plan state) => now.toPurgeFrame) _
    (fun state ends => finished_closed ends) _
    closed (fun absent => ?_)
    (fun state journal faults now first stored => ?_) faults
  · obtain ⟨journal, stored, _⟩ := closed.journal
    rw [absent] at stored
    cases stored
  · obtain ⟨version, root⟩ := own_checks journal (now.own journal stored)
    refine recover_checked operation journal stored version root now _ _
      (fun unreadable => ⟨journal, first, unreadable⟩) faults fun faults => ?_
    exact comes_mono _ _ _ _ _ _ _ (fun _ _ _ ends => ends) False.elim (resume_closed removes now journal stored faults)

-- A pass over journals that have all ended.
theorem recover_settled (settled : SettledPurges codec repository) (blocked : Prop) (here : crash repository) (faults : List Bool) :
    SafeAccess crash (recoverLocalTrashPurges codec)
      (comesTo faults (fun _ after => after = repository) blocked) ⟨repository, faults⟩ := by
  apply comes_reads _ _ _ _ _ here repository.purges.keys rfl
  intro faults
  have loop :=
    comes_for_each (recoverPurge codec) (fun rest state => state = repository ∧ ∀ name ∈ rest, name ∈ repository.purges.keys) blocked
    (fun name rest state faults inv => ?_)
    (fun state inv => (inv.1 ▸ here : crash state)) repository.purges.keys repository faults ⟨rfl, fun _ => id⟩
  · exact comes_mono _ _ _ _ _ _ _ (fun _ _ _ inv => inv.1) id loop
  · obtain ⟨rfl, listed⟩ := inv
    have member := listed name List.mem_cons_self
    rw [Std.ExtTreeMap.mem_keys, Std.ExtTreeMap.mem_iff_isSome_getElem?, Option.isSome_iff_exists] at member
    obtain ⟨journal, stored⟩ := member
    obtain ⟨readable, version, root, ended⟩ := settled name journal stored
    refine comes_mono _ _ _ _ _ _ _ (fun _ _ _ same => ⟨same, fun other member => listed other (List.mem_cons_of_mem _ member)⟩) id
      (recover_ended name journal stored version root ended here blocked (fun unreadable => absurd readable unreadable) faults)

end Recover

end SessionSync.Storage
