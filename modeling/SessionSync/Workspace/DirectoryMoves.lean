import SessionSync.Workspace.Cleanup

set_option autoImplicit false

namespace SessionSync.Workspace

open SessionSync.Core Checked Local

theorem set_directory_at (disk : CleanupDisk) (place : Place) (directory : Option Directory) :
    (disk.setDirectory place directory).directories place = directory := if_pos rfl

theorem set_directory_other (disk : CleanupDisk) (place other : Place) (directory : Option Directory) (apart : other ≠ place) :
    (disk.setDirectory place directory).directories other = disk.directories other := if_neg apart

theorem set_directory_same (disk : CleanupDisk) (place : Place) : disk.setDirectory place (disk.directories place) = disk := by
  have same : (fun other => if other = place then disk.directories place else disk.directories other) = disk.directories := by
    funext other
    by_cases here : other = place
    · rw [if_pos here, here]
    · rw [if_neg here]
  rw [CleanupDisk.setDirectory, same]

theorem set_directory_twice (disk : CleanupDisk) (place : Place) (first second : Option Directory) :
    (disk.setDirectory place first).setDirectory place second = disk.setDirectory place second := by
  simp only [CleanupDisk.setDirectory]
  congr 1
  funext other
  by_cases here : other = place
  · rw [if_pos here, if_pos here]
  · rw [if_neg here, if_neg here, if_neg here]

theorem set_directory_comm (disk : CleanupDisk) (one two : Place) (first second : Option Directory) (apart : one ≠ two) :
    (disk.setDirectory one first).setDirectory two second = (disk.setDirectory two second).setDirectory one first := by
  simp only [CleanupDisk.setDirectory]
  congr 1
  funext other
  by_cases here : other = one
  · rw [if_pos here, if_neg (fun same => apart (here.symm.trans same)), if_pos here]
  · rw [if_neg here, if_neg here]

theorem set_global_twice (disk : CleanupDisk) (path : String) (first second : Option Bytes) :
    (disk.setGlobalState path first).setGlobalState path second = disk.setGlobalState path second := by
  simp only [CleanupDisk.setGlobalState]
  congr 1
  funext other
  by_cases here : other = path
  · rw [if_pos here, if_pos here]
  · rw [if_neg here, if_neg here, if_neg here]

-- An empty directory on its way: also at the destination, or only there.
def CleanupDisk.doubled (disk : CleanupDisk) (destination : Place) : CleanupDisk :=
  disk.setDirectory destination (some emptyDirectory)

def CleanupDisk.moved (disk : CleanupDisk) (source destination : Place) : CleanupDisk :=
  (disk.doubled destination).setDirectory source none

-- Where a move can stop.
inductive MoveStop (disk : CleanupDisk) (source destination : Place) : CleanupDisk → Prop where
  | before : MoveStop disk source destination disk
  | doubled (there : disk.directories source = some emptyDirectory) : MoveStop disk source destination (disk.doubled destination)
  | moved (there : disk.directories source = some emptyDirectory) : MoveStop disk source destination (disk.moved source destination)

theorem empty_of (directory : Directory) (regular : directory.regular = true) (entries : directory.entries.isEmpty = true) :
    directory = emptyDirectory := by
  obtain ⟨kind, names⟩ := directory
  cases regular
  exact congrArg (Directory.mk true) (List.isEmpty_iff.mp entries)

section Move

variable (env : CleanupEnv) {disk : CleanupDisk} {source destination : Place}

theorem doubled_back (free : disk.directories destination = none) :
    (disk.doubled destination).setDirectory destination none = disk := by
  rw [CleanupDisk.doubled, set_directory_twice, ← free, set_directory_same]

theorem moved_source : (disk.moved source destination).directories source = none := set_directory_at _ _ _

theorem moved_other (disk : CleanupDisk) (source destination place : Place) (one : place ≠ source) (other : place ≠ destination) :
    (disk.moved source destination).directories place = disk.directories place :=
  (set_directory_other _ _ _ _ one).trans (set_directory_other _ _ _ _ other)

variable (apart : source ≠ destination)

include apart

theorem doubled_source : (disk.doubled destination).directories source = disk.directories source := set_directory_other _ _ _ _ apart

theorem moved_destination : (disk.moved source destination).directories destination = some emptyDirectory := by
  rw [CleanupDisk.moved, set_directory_other _ _ _ _ (Ne.symm apart)]
  exact set_directory_at _ _ _

theorem rename_moves (there : disk.directories source = some emptyDirectory) (after : CleanupDisk)
    (ran : renameDirectory source destination disk = .ok after) : after = disk.moved source destination := by
  simp only [renameDirectory, bind_ok, found_ok, ensure_ok, pure_ok] at ran
  obtain ⟨directory, stored, _, _, rfl⟩ := ran
  rw [there] at stored
  cases stored
  rw [CleanupDisk.moved, CleanupDisk.doubled, set_directory_comm _ _ _ _ _ apart]

abbrev Stops (disk : CleanupDisk) (source destination : Place) {ε α : Type} (prog : Prog (Faulty CleanupDisk) ε α)
    (post : Except ε α → CleanupDisk → Prop) (device : Faulty CleanupDisk) : Prop :=
  SafeAccess (MoveStop disk source destination) prog (fun outcome seen => post outcome seen.state) device

omit apart in
theorem discard_stops (free : disk.directories destination = none) (there : disk.directories source = some emptyDirectory)
    (device : Faulty CleanupDisk) (at_ : device.state = disk.doubled destination) :
    Stops disk source destination (discardDirectory destination) (fun outcome _ => outcome = .ok ()) device := by
  have stop : MoveStop disk source destination device.state := at_ ▸ .doubled there
  apply safe_tries _ _ (fun _ _ => True)
  · apply safe_touch _ _ _ stop
    · intro after rest ran _
      simp only [removeDirectory, bind_ok, found_ok, ensure_ok, pure_ok] at ran
      obtain ⟨_, _, _, _, rfl⟩ := ran
      rw [at_, doubled_back free]
      exact ⟨.before, trivial⟩
    · exact fun _ _ _ => trivial
  · exact fun _ seen kept _ => safe_done _ _ _ kept rfl

-- Wherever a move stops, it has arrived if it ends well.
abbrev Arrives (disk : CleanupDisk) (source destination : Place) (prog : CleanupAccess Unit) (device : Faulty CleanupDisk) : Prop :=
  Stops disk source destination prog (fun outcome after => outcome = .ok () → after = disk.moved source destination) device

theorem move_across_stops (free : disk.directories destination = none) (there : disk.directories source = some emptyDirectory)
    (faults : List Bool) : Arrives disk source destination (moveAcross env source destination) ⟨disk, faults⟩ := by
  apply safe_pause _ _ _ .before
  · intro faults
    apply safe_change _ _ _ _ .before
    · intro after faults ran
      simp only [createDirectory, bind_ok, ensure_ok, pure_ok] at ran
      obtain ⟨_, _, rfl⟩ := ran
      have stop : MoveStop disk source destination (disk.doubled destination) := .doubled there
      have still : (disk.doubled destination).directories source = some emptyDirectory := (doubled_source apart).trans there
      apply safe_look _ _ _ _ stop
      · intro empty faults read
        cases empty with
        | true =>
            apply safe_tries _ _ (fun outcome seen =>
              (outcome = .ok () → seen.state = disk.moved source destination) ∧
                ∀ error, outcome = .error error → seen.state = disk.doubled destination)
            · apply safe_touch _ _ _ stop
              · intro after rest ran _
                simp only [removeDirectory, bind_ok, found_ok, ensure_ok, pure_ok] at ran
                obtain ⟨_, _, _, _, rfl⟩ := ran
                exact ⟨.moved there, fun _ => rfl, fun error failed => no_value error () failed.symm⟩
              · exact fun error _ _ => ⟨no_value error (), fun _ _ => rfl⟩
            · intro outcome seen kept left
              cases outcome with
              | ok value => exact safe_done _ _ _ kept left.1
              | error error =>
                  apply safe_then _ _ _ _ _ (discard_stops free there seen (left.2 error rfl))
                  · exact fun _ last kept _ => ⟨kept, no_value error ()⟩
                  · exact fun error _ _ => no_value error ()
        | false =>
            apply safe_then _ _ _ _ _ (discard_stops free there _ rfl)
            · exact fun _ last kept _ => ⟨kept, no_value _ ()⟩
            · exact fun error _ _ => no_value error ()
      · exact fun error _ => no_value error ()
    · exact fun error _ => no_value error ()
  · exact fun error _ => no_value error ()

theorem transfer_stops (free : disk.directories destination = none) (there : disk.directories source = some emptyDirectory)
    (faults : List Bool) : Arrives disk source destination (transferDirectory env source destination) ⟨disk, faults⟩ := by
  unfold transferDirectory
  by_cases crosses : env.crossesDevices source destination = true
  · rw [if_pos crosses]
    exact move_across_stops env apart free there faults
  · rw [if_neg crosses]
    apply safe_touch _ _ _ .before
    · intro after rest ran _
      rw [rename_moves apart there after ran]
      exact ⟨.moved there, fun _ => rfl⟩
    · exact fun error _ _ => no_value error ()

theorem move_stops (free : disk.directories destination = none) (faults : List Bool) :
    Stops disk source destination (moveEmptyDirectory env source destination) (fun outcome after => outcome = .ok () →
      disk.directories source = some emptyDirectory ∧ after = disk.moved source destination) ⟨disk, faults⟩ := by
  apply safe_look _ _ _ _ .before
  · intro metadata faults stored
    apply safe_check _ _ _ _ .before
    · intro _ regular
      apply safe_look _ _ _ _ .before
      · intro empty faults looked
        apply safe_check _ _ _ _ .before
        · intro _ nothing
          have there : disk.directories source = some emptyDirectory := by
            simp only [found_ok, ensure_ok, bind_ok, pure_ok] at stored regular nothing looked
            obtain ⟨directory, known, same⟩ := looked
            rw [stored] at known ⊢
            cases known
            rw [empty_of metadata regular (same.trans nothing)]
          apply safe_then _ _ _ _ _ (transfer_stops env apart free there faults)
          · intro _ seen kept arrives
            obtain ⟨state, faults⟩ := seen
            have same : state = disk.moved source destination := arrives rfl
            apply safe_look _ _ _ _ kept
            · intro empty faults looked
              cases empty with
              | true => exact safe_done _ _ _ kept fun _ => ⟨there, same⟩
              | false =>
                  simp only [same, moved_destination apart, found, bind_ok, pure_ok, Except.ok.injEq, exists_eq_left'] at looked
                  cases looked
            · exact fun error _ => no_value error ()
          · exact fun error _ _ _ => no_value error ()
        · exact fun error _ => no_value error ()
      · exact fun error _ => no_value error ()
    · exact fun error _ => no_value error ()
  · exact fun error _ => no_value error ()

omit apart in
theorem quiet_empty (place : Place) (stored : disk.directories place = some emptyDirectory) :
    (directoryIsEmpty place).exec ⟨disk, []⟩ = (.ok true, ⟨disk, []⟩) := by
  rw [directoryIsEmpty, quiet_inspect, stored]
  rfl

section Undisturbed

variable (there : disk.directories source = some emptyDirectory) (free : disk.directories destination = none)

include there

include free

theorem quiet_across : (moveAcross env source destination).exec ⟨disk, []⟩ = (.ok (), ⟨disk.moved source destination, []⟩) := by
  have still : (disk.doubled destination).directories source = some emptyDirectory := (doubled_source apart).trans there
  have created : (touch (createDirectory destination)).exec ⟨disk, []⟩ = (.ok (), ⟨disk.doubled destination, []⟩) := by
    rw [quiet_touch, createDirectory, free]
    rfl
  have removed : (touch (removeDirectory source)).exec ⟨disk.doubled destination, []⟩ =
    (.ok (), ⟨disk.moved source destination, []⟩) := by
    rw [quiet_touch, removeDirectory, still]
    rfl
  have paused : (fallible : CleanupAccess Unit).exec ⟨disk, []⟩ = (.ok (), ⟨disk, []⟩) := quiet_touch _ _
  simp only [moveAcross, Prog.exec_bind, paused, created, quiet_empty source still, if_true, Prog.exec_attempt, removed]
  rfl

theorem quiet_move : (moveEmptyDirectory env source destination).exec ⟨disk, []⟩ = (.ok (), ⟨disk.moved source destination, []⟩) := by
  have inspected : (inspect fun disk : CleanupDisk => found (disk.directories source)
      ("failed to inspect empty workspace " ++ env.display source)).exec ⟨disk, []⟩ = (.ok emptyDirectory, ⟨disk, []⟩) := by
    rw [quiet_inspect, there]
    rfl
  have transferred : (transferDirectory env source destination).exec ⟨disk, []⟩ = (.ok (), ⟨disk.moved source destination, []⟩) := by
    unfold transferDirectory
    by_cases crosses : env.crossesDevices source destination = true
    · rw [if_pos crosses]
      exact quiet_across env apart there free
    · have renamed : renameDirectory source destination disk = .ok (disk.moved source destination) := by
        have ran : renameDirectory source destination disk =
            .ok ((disk.setDirectory source none).setDirectory destination (some emptyDirectory)) := by
          simp only [renameDirectory, bind_ok, found_ok, ensure_ok, pure_ok]
          refine ⟨_, there, (), fun other stored => ?_, rfl⟩
          rw [free] at stored
          cases stored
        rw [ran, rename_moves apart there _ ran]
      rw [if_neg crosses, quiet_touch, renamed]
      rfl
  have arrived : (disk.moved source destination).directories destination = some emptyDirectory := moved_destination apart
  simp only [moveEmptyDirectory, Prog.exec_bind, inspected, Prog.exec_of_except, ensure, emptyDirectory, if_true,
    quiet_empty source there, transferred, quiet_empty destination arrived]
  rfl

end Undisturbed

end Move

section Replace

variable (env : CleanupEnv) (path expectedSha256 : String) (bytes : Bytes)

-- Between the two files there is none.
theorem replace_safe {crash : CleanupDisk → Prop} (disk : CleanupDisk) (faults : List Bool) (here : crash disk)
    (changes : ∀ live, disk.globalStates path = some live → digestBytes env.lib live = expectedSha256 →
      crash (disk.setGlobalState path none) ∧ crash (disk.setGlobalState path (some bytes))) :
    SafeAccess crash (replaceFileIfHashMatches env path expectedSha256 bytes)
      (fun outcome seen => outcome = .ok () → seen.state = disk.setGlobalState path (some bytes)) ⟨disk, faults⟩ := by
  apply safe_look _ _ _ _ here
  · intro live faults stored
    apply safe_check _ _ _ _ here
    · intro _ same
      obtain ⟨gone, new⟩ := changes live ((found_ok _ _ _).mp stored) ((ensure_ok _ _ _).mp same)
      apply safe_pause _ _ _ here
      · intro faults
        apply safe_change _ _ _ _ here
        · intro after faults ran
          simp only [bind_ok, pure_ok] at ran
          obtain ⟨_, _, rfl⟩ := ran
          apply safe_change _ _ _ _ gone
          · intro after faults ran
            cases ran
            rw [set_global_twice]
            apply safe_look _ _ _ _ new
            · intro installed faults _
              apply safe_result _ _ _ new
              exact fun _ => rfl
            · exact fun error _ => no_value error ()
          · exact fun error _ => no_value error ()
        · exact fun error _ => no_value error ()
      · exact fun error _ => no_value error ()
    · exact fun error _ => no_value error ()
  · exact fun error _ => no_value error ()

theorem quiet_replace (disk : CleanupDisk) (live : Bytes) (stored : disk.globalStates path = some live)
    (same : digestBytes env.lib live = expectedSha256) :
    (replaceFileIfHashMatches env path expectedSha256 bytes).exec ⟨disk, []⟩ =
    (.ok (), ⟨disk.setGlobalState path (some bytes), []⟩) := by
  have read : globalStateFile path disk = .ok live := (found_ok _ _ _).mpr stored
  have installed : globalStateFile path (disk.setGlobalState path (some bytes)) = .ok bytes := (found_ok _ _ _).mpr (if_pos rfl)
  have looked : (inspect (globalStateFile path)).exec ⟨disk, []⟩ = (.ok live, ⟨disk, []⟩) := by
    rw [quiet_inspect, read]
  have gone : (touch fun disk => do
      let _ ← globalStateFile path disk
      return disk.setGlobalState path none).exec ⟨disk, []⟩ = (.ok (), ⟨disk.setGlobalState path none, []⟩) := by
    rw [quiet_touch, read]
    rfl
  have put : (touch fun disk => .ok (disk.setGlobalState path (some bytes))).exec ⟨disk.setGlobalState path none, []⟩ =
      (.ok (), ⟨disk.setGlobalState path (some bytes), []⟩) := by
    rw [quiet_touch, set_global_twice]
    rfl
  have reread : (inspect (globalStateFile path)).exec ⟨disk.setGlobalState path (some bytes), []⟩ =
      (.ok bytes, ⟨disk.setGlobalState path (some bytes), []⟩) := by
    rw [quiet_inspect, installed]
  have paused : (fallible : CleanupAccess Unit).exec ⟨disk, []⟩ = (.ok (), ⟨disk, []⟩) := quiet_touch _ _
  simp only [replaceFileIfHashMatches, Prog.exec_bind, looked, Prog.exec_of_except, ensure, same, if_true, paused, gone, put, reread]

end Replace

end SessionSync.Workspace
