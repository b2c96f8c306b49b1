import SessionSync.Provider.Sync
import SessionSync.Local.ThreadAtomicity

set_option autoImplicit false

namespace SessionSync.Provider

open SessionSync.Core Checked Storage Rollout Local Lib

variable {env : ScanEnv} {home : ProviderHome} {provider : String}

def sessionDirectory (archived : Bool) : String := if archived then "archived_sessions" else "sessions"

section Files

theorem rollout_file_iff (file : RolloutFile) :
    file ∈ rolloutFiles env home ↔ isRolloutPath file.path = true ∧ (home.trees file.archived)[file.path]? = some file.bytes ∧
      file.logicalPath = sessionDirectory file.archived ++ "/" ++ file.path := by
  obtain ⟨path, logicalPath, archived, bytes⟩ := file
  rw [rolloutFiles, List.mem_append, tree_file_iff, tree_file_iff]
  cases archived with
  | false => simp [sessionDirectory]
  | true => simp [sessionDirectory]

theorem same_file (left right : RolloutFile) (leftFile : left ∈ rolloutFiles env home) (rightFile : right ∈ rolloutFiles env home)
    (side : left.archived = right.archived) (path : left.path = right.path) : left = right := by
  obtain ⟨_, leftHeld, leftLogical⟩ := (rollout_file_iff left).mp leftFile
  obtain ⟨_, rightHeld, rightLogical⟩ := (rollout_file_iff right).mp rightFile
  have logical : left.logicalPath = right.logicalPath := by rw [leftLogical, rightLogical, side, path]
  rw [← side, ← path, leftHeld, Option.some.injEq] at rightHeld
  obtain ⟨leftPath, leftName, leftSide, leftBytes⟩ := left
  obtain ⟨rightPath, rightName, rightSide, rightBytes⟩ := right
  simp only at side path logical rightHeld
  rw [side, path, logical, rightHeld]

end Files

section Threads

theorem thread_file (record : RolloutRecord) (member : record ∈ (scanHome env home).threads) :
    record.source ∈ rolloutFiles env home ∧ readRolloutRecord env.reader env.utf8Error record.source = .ok record :=
  thread_read env.reader env.utf8Error (rolloutFiles env home) record member

theorem same_place (left right : RolloutRecord) (leftThread : left ∈ (scanHome env home).threads)
    (rightThread : right ∈ (scanHome env home).threads) (same : place left = place right) : left = right := by
  obtain ⟨leftFile, leftRead⟩ := thread_file left leftThread
  obtain ⟨rightFile, rightRead⟩ := thread_file right rightThread
  have source := same_file left.source right.source leftFile rightFile (congrArg Prod.fst same) (congrArg Prod.snd same)
  rw [source, rightRead, Except.ok.injEq] at leftRead
  exact leftRead.symm

theorem places_distinct : ((scanHome env home).threads.map place).Nodup := by
  have distinct : (scanHome env home).threads.Nodup := by
    have keys : (scanHome env home).rollouts.toList.Pairwise fun left right => ¬ compare left.1 right.1 = .eq :=
      Std.ExtTreeMap.distinct_keys_toList
    rw [Scan.threads, List.nodup_iff_pairwise_ne, List.pairwise_map]
    refine List.Pairwise.imp_of_mem ?_ keys
    intro left right leftMember rightMember apart same
    have listed := scan_rollouts_listed env.reader env.utf8Error (rolloutFiles env home)
    have leftName := (listed left.1 left.2 (Std.ExtTreeMap.mem_toList_iff_getElem?_eq_some.mp leftMember)).1
    have rightName := (listed right.1 right.2 (Std.ExtTreeMap.mem_toList_iff_getElem?_eq_some.mp rightMember)).1
    rw [← leftName, ← rightName, same] at apart
    exact apart Std.compare_self
  exact distinct.map_on fun left leftMember right rightMember same => same_place left right leftMember rightMember same

end Threads

section Targets

variable (env provider)

-- What the selection takes, once every first record has been read.
def selected (threads : List RolloutRecord) : List RolloutRecord :=
  threads.filter fun thread => !namesFirst env.reader provider thread.source.bytes

variable {env provider}

theorem select_run (threads before targets : List RolloutRecord) (distinct : ((before ++ threads).map place).Nodup) :
    threads.foldlM (selectStep env provider) before = .ok targets ↔
      (∀ thread ∈ threads, ∃ current, readRolloutProvider env.reader thread.source.bytes = .ok current) ∧
        targets = before ++ selected env provider threads := by
  induction threads generalizing before with
  | nil => simp [selected, pure, Except.pure, eq_comm]
  | cons thread rest ih =>
      have fresh : place thread ∉ before.map place := by
        intro inside
        rw [List.map_append, List.nodup_append'] at distinct
        exact distinct.2.2 inside (List.mem_map.mpr ⟨thread, List.mem_cons_self, rfl⟩)
      rw [List.foldlM_cons, bind_ok, List.forall_mem_cons]
      cases read : readRolloutProvider env.reader thread.source.bytes with
      | error reason => simp [selectStep, read, bind, Except.bind]
      | ok current =>
          simp only [selectStep, read, bind, Except.bind]
          by_cases names : current = some provider
          · have skipped : selected env provider (thread :: rest) = selected env provider rest := by
              refine List.filter_cons_of_neg ?_
              simp [names_first_iff provider thread.source.bytes |>.mpr (names ▸ read)]
            rw [skipped]
            have narrower : ((before ++ rest).map place).Nodup :=
              distinct.sublist (((List.Sublist.refl before).append (List.sublist_cons_self thread rest)).map place)
            simp [names, pure, Except.pure, ih before narrower]
          · have taken : selected env provider (thread :: rest) = thread :: selected env provider rest := by
              refine List.filter_cons_of_pos ?_
              have first : namesFirst env.reader provider thread.source.bytes = true ↔ _ :=
                names_first_iff provider thread.source.bytes
              rw [read, Except.ok.injEq] at first
              simpa [Bool.not_eq_true'] using fun holds => names (first.mp holds)
            rw [taken]
            have moved : (((before ++ [thread]) ++ rest).map place).Nodup := by
              rw [List.append_assoc]
              exact distinct
            simp [names, fresh, pure, Except.pure, ih (before ++ [thread]) moved]

theorem select_iff (targets : List RolloutRecord) :
    selectTargets env provider (scanHome env home).threads = .ok targets ↔
      (∀ thread ∈ (scanHome env home).threads, ∃ current, readRolloutProvider env.reader thread.source.bytes = .ok current) ∧
        targets = selected env provider (scanHome env home).threads :=
  select_run _ [] targets places_distinct

end Targets

end SessionSync.Provider
