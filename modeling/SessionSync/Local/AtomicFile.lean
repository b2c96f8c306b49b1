import SessionSync.Local.Access

set_option autoImplicit false

namespace SessionSync.Local

open SessionSync.Core Checked

structure FilePath where
  parent : String
  fileName : String
deriving DecidableEq, Repr

-- The files and what is in them. Directories hold no content of their own, so the
-- call that creates them changes nothing here.
structure FileSystem where
  files : FilePath → Option Bytes

namespace FileSystem

def set (system : FileSystem) (path : FilePath) (content : Option Bytes) : FileSystem :=
  ⟨fun other => if other = path then content else system.files other⟩

-- OpenOptions::create_new, write_all, fs::remove_file and fs::rename, each atomic.
def createNew (path : FilePath) (system : FileSystem) : Except String FileSystem := do
  ensure (system.files path = none) "file exists"
  return system.set path (some [])

def writeAll (path : FilePath) (bytes : Bytes) (system : FileSystem) : Except String FileSystem := do
  let content ← found (system.files path) "no such file"
  return system.set path (some (content ++ bytes))

def removeFile (path : FilePath) (system : FileSystem) : Except String FileSystem := do
  let _ ← found (system.files path) "no such file"
  return system.set path none

def rename (source destination : FilePath) (system : FileSystem) : Except String FileSystem := do
  let content ← found (system.files source) "no such file"
  return (system.set source none).set destination (some content)

end FileSystem

-- Uuid::now_v7 is the caller's `id`.
def temporarySibling (path : FilePath) (purpose : String) (id : Uuid) : FilePath :=
  { path with fileName := "." ++ path.fileName ++ "." ++ purpose ++ "-" ++ id.text ++ ".tmp" }

def removeExisting (path : FilePath) : Device FileSystem Unit := do
  let old ← probe fun system => (system.files path).isSome
  if old then touch (FileSystem.removeFile path) else pure ()

section Write

variable {α : Type} (encode : α → Except String Bytes)

def FileSystem.atomicWriteJson (path : FilePath) (value : α) (id : Uuid) : Device FileSystem Unit := do
  createDirAll
  let bytes ← Prog.ofExcept (encode value)
  touch (FileSystem.createNew (temporarySibling path "write" id))
  touch (FileSystem.writeAll (temporarySibling path "write" id) bytes)
  fallible
  removeExisting path
  touch (FileSystem.rename (temporarySibling path "write" id) path)

end Write

theorem set_same (system : FileSystem) (path : FilePath) (content : Option Bytes) : (system.set path content).files path = content :=
  if_pos rfl

theorem set_other (system : FileSystem) (path other : FilePath) (content : Option Bytes) (apart : other ≠ path) :
    (system.set path content).files other = system.files other := if_neg apart

theorem temporary_apart (path : FilePath) (purpose : String) (id : Uuid) : path ≠ temporarySibling path purpose id := by
  intro same
  have names := congrArg (fun path : FilePath => path.fileName.length) same
  simp only [temporarySibling, String.length_append] at names
  have dot : ".".length = 1 := rfl
  omega

section Crash

variable {α : Type} (encode : α → Except String Bytes) (value : α) (path : FilePath) (id : Uuid) (start : FileSystem)

-- What a reader of the path can find while the call is under way, and where the new
-- document is when there is nothing at the path.
inductive Stage (bytes : Bytes) : FileSystem → Prop where
  | untouched {system : FileSystem} (same : system.files path = start.files path) : Stage bytes system
  | missing {system : FileSystem} (gone : system.files path = none)
      (kept : system.files (temporarySibling path "write" id) = some bytes) : Stage bytes system
  | replaced {system : FileSystem} (new : system.files path = some bytes) : Stage bytes system

variable (faults : List Bool)

theorem replace_stages (bytes : Bytes) (system : FileSystem) (same : system.files path = start.files path)
    (ready : system.files (temporarySibling path "write" id) = some bytes) :
    SafeAccess (Stage path id start bytes)
      (removeExisting path >>= fun _ => touch (FileSystem.rename (temporarySibling path "write" id) path))
      (fun _ _ => True) ⟨system, faults⟩ := by
  have apart := temporary_apart path "write" id
  have here : Stage path id start bytes system := .untouched same
  have renames : ∀ seen : Faulty FileSystem, Stage path id start bytes seen.state →
      seen.state.files (temporarySibling path "write" id) = some bytes →
      SafeAccess (Stage path id start bytes) (touch (FileSystem.rename (temporarySibling path "write" id) path))
        (fun _ _ => True) seen := by
    intro seen stage kept
    apply safe_touch _ _ _ stage
    · intro after rest ran _
      simp only [FileSystem.rename, kept, bind_ok, found_ok, pure_ok] at ran
      obtain ⟨_, equal, rfl⟩ := ran
      cases equal
      exact ⟨.replaced (set_same _ _ _), trivial⟩
    · exact fun _ _ _ => trivial
  apply safe_then _ _ (fun _ seen => seen.state.files (temporarySibling path "write" id) = some bytes)
  · apply safe_probe _ _ _ _ here
    by_cases old : (system.files path).isSome = true
    · simp only [old, if_true]
      apply safe_touch _ _ _ here
      · intro after rest ran _
        simp only [FileSystem.removeFile, bind_ok, found_ok, pure_ok] at ran
        obtain ⟨_, _, rfl⟩ := ran
        have kept := (set_other system path _ none apart.symm).trans ready
        exact ⟨.missing (set_same _ _ _) kept, kept⟩
      · exact fun _ _ _ => ready
    · simp only [old, Bool.false_eq_true, if_false]
      exact safe_done _ _ _ here ready
  · exact fun _ seen stage kept => renames seen stage kept
  · exact fun _ _ _ _ => trivial

-- Wherever the call is cut off, the path holds what it held before or the new
-- document, or nothing while the new document waits under its temporary name.
theorem atomic_write_stages (bytes : Bytes) (encoded : encode value = .ok bytes) :
    SafeAccess (Stage path id start bytes) (FileSystem.atomicWriteJson encode path value id) (fun _ _ => True) ⟨start, faults⟩ := by
  have apart := temporary_apart path "write" id
  apply safe_pause _ _ _ (.untouched rfl)
  · intro faults
    rw [encoded]
    apply safe_change _ _ _ _ (.untouched rfl)
    · intro created faults ran
      simp only [FileSystem.createNew, bind_ok, ensure_ok, pure_ok] at ran
      obtain ⟨_, _, rfl⟩ := ran
      have same := set_other start (temporarySibling path "write" id) path (some []) apart
      apply safe_change _ _ _ _ (.untouched same)
      · intro written faults ran
        simp only [FileSystem.writeAll, set_same, bind_ok, found_ok, pure_ok] at ran
        obtain ⟨_, equal, rfl⟩ := ran
        cases equal
        have still := (set_other (start.set (temporarySibling path "write" id) (some [])) (temporarySibling path "write" id) path
          (some ([] ++ bytes)) apart).trans same
        apply safe_pause _ _ _ (.untouched still)
        · exact fun faults => replace_stages path id start faults bytes _ still (set_same _ _ _)
        · exact fun _ _ => trivial
      · exact fun _ _ => trivial
    · exact fun _ _ => trivial
  · exact fun _ _ => trivial

-- At every crash point the path holds the whole old document or the whole new one.
def KeepsDocument : Prop :=
  ∀ faults seen, (FileSystem.atomicWriteJson encode path value id).Cut ⟨start, faults⟩ seen →
    seen.state.files path = start.files path ∨ ∃ bytes, encode value = .ok bytes ∧ seen.state.files path = some bytes

-- The call gives up before it comes to the file: there is no text to write, or its temporary name is taken.
def GivesUpEarly : Prop := (∃ error, encode value = .error error) ∨ start.files (temporarySibling path "write" id) ≠ none

def Untouched (seen : FileSystem) : Prop := seen.files path = start.files path

theorem gives_up_safe (early : GivesUpEarly encode value path id start) :
    SafeAccess (Untouched path start) (FileSystem.atomicWriteJson encode path value id) (fun _ _ => True) ⟨start, faults⟩ := by
  have here : Untouched path start start := rfl
  apply safe_pause _ _ _ here
  · intro faults
    apply safe_check _ _ _ _ here
    · intro bytes encoded
      apply safe_change _ _ _ _ here
      · intro created faults ran
        simp only [FileSystem.createNew, bind_ok, ensure_ok, pure_ok] at ran
        obtain ⟨_, free, _⟩ := ran
        rcases early with ⟨error, failed⟩ | taken
        · exact no_value error bytes (failed.symm.trans encoded)
        · exact absurd free taken
      · exact fun _ _ => trivial
    · exact fun _ _ => trivial
  · exact fun _ _ => trivial

theorem quiet_change (run : FileSystem → Except String FileSystem) (before after : FileSystem) (ran : run before = .ok after) :
    (touch run).exec ⟨before, []⟩ = (.ok (), ⟨after, []⟩) := by
  rw [quiet_touch, ran]
  rfl

-- The files once the new document is complete under its temporary name.
def prepared (bytes : Bytes) : FileSystem :=
  (start.set (temporarySibling path "write" id) (some [])).set (temporarySibling path "write" id) (some bytes)

-- Undisturbed, the call comes to the replacement itself.
theorem reaches_replacement (bytes : Bytes) (encoded : encode value = .ok bytes)
    (free : start.files (temporarySibling path "write" id) = none) (seen : Faulty FileSystem)
    (cut : (removeExisting path >>= fun _ => touch (FileSystem.rename (temporarySibling path "write" id) path)).Cut
      ⟨prepared path id start bytes, []⟩ seen) : (FileSystem.atomicWriteJson encode path value id).Cut ⟨start, []⟩ seen := by
  have quiet : ∀ system : FileSystem, (fallible : Device FileSystem Unit).exec ⟨system, []⟩ = (.ok (), ⟨system, []⟩) :=
    fun system => quiet_touch _ system
  have creates : FileSystem.createNew (temporarySibling path "write" id) start =
      .ok (start.set (temporarySibling path "write" id) (some [])) := by
    simp [FileSystem.createNew, free, ensure, bind, Except.bind, pure, Except.pure]
  have writes : FileSystem.writeAll (temporarySibling path "write" id) bytes (start.set
    (temporarySibling path "write" id) (some [])) =
      .ok (prepared path id start bytes) := by
    simp [FileSystem.writeAll, set_same, found, prepared, bind, Except.bind, pure, Except.pure]
  apply Prog.cut_later _ _ _ _ _ _ (quiet start)
  rw [encoded]
  apply Prog.cut_later _ _ _ _ _ _ (quiet_change _ _ _ creates)
  apply Prog.cut_later _ _ _ _ _ _ (quiet_change _ _ _ writes)
  exact Prog.cut_later _ _ _ _ _ _ (quiet _) cut

theorem quiet_removed (system : FileSystem) :
    (removeExisting path).exec ⟨system, []⟩ = (.ok (), ⟨if system.files path = none then system else system.set path none, []⟩) := by
  rw [removeExisting, Prog.exec_bind, quiet_probe]
  cases old : system.files path with
  | none => rfl
  | some content =>
      have removes : FileSystem.removeFile path system = .ok (system.set path none) := by
        simp [FileSystem.removeFile, old, found, bind, Except.bind, pure, Except.pure]
      simp only [Option.isSome_some, if_true, reduceCtorEq, if_false]
      exact quiet_change _ _ _ removes

variable (bytes : Bytes) (encoded : encode value = .ok bytes) (free : start.files (temporarySibling path "write" id) = none)

include encoded free

theorem missing_cut : ∃ seen, (FileSystem.atomicWriteJson encode path value id).Cut ⟨start, []⟩ seen ∧
    seen.state.files path = none := by
  refine ⟨_, reaches_replacement encode value path id start bytes encoded free _
    (Prog.cut_later _ _ _ _ _ _ (quiet_removed path (prepared path id start bytes)) (Prog.cut_begins _ _)), ?_⟩
  dsimp only
  split
  · assumption
  · exact set_same _ _ _

theorem replaced_cut : ∃ seen, (FileSystem.atomicWriteJson encode path value id).Cut ⟨start, []⟩ seen ∧
    seen.state.files path = some bytes := by
  have removed := quiet_removed path (prepared path id start bytes)
  generalize system : (if (prepared path id start bytes).files path = none then prepared path id start bytes
    else (prepared path id start bytes).set path none) = last at removed
  have kept : last.files (temporarySibling path "write" id) = some bytes := by
    rw [← system]
    split
    · exact set_same _ _ _
    · exact (set_other _ _ _ _ (temporary_apart path "write" id).symm).trans (set_same _ _ _)
  have renames : FileSystem.rename (temporarySibling path "write" id) path last =
      .ok ((last.set (temporarySibling path "write" id) none).set path (some bytes)) := by
    simp [FileSystem.rename, kept, found, bind, Except.bind, pure, Except.pure]
  refine ⟨⟨(last.set (temporarySibling path "write" id) none).set path (some bytes), []⟩,
    reaches_replacement encode value path id start bytes encoded free _ (Prog.cut_later _ _ _ _ _ _ removed ?_), ?_⟩
  · have ran := Prog.cut_exec (touch (FileSystem.rename (temporarySibling path "write" id) path)) ⟨last, []⟩
    rw [quiet_change _ _ _ renames] at ran
    exact ran
  · exact set_same _ _ _

-- What a crash leaves at the path is what the journals' own model of the call says it leaves.
theorem journal_write_cut_iff (content : Option Bytes) :
    (∃ faults seen, (FileSystem.atomicWriteJson encode path value id).Cut ⟨start, faults⟩ seen ∧ seen.state.files path = content) ↔
      ∃ faults seen, (atomicWriteJson Option.isSome (fun _ => none) fun _ => some bytes).Cut ⟨start.files path, faults⟩ seen ∧
        seen.state = content := by
  have coarse : ∀ old : Option Bytes, ∃ seen, (atomicWriteJson Option.isSome (fun _ => none) fun _ => some bytes).Cut ⟨old, []⟩ seen ∧
      seen.state = none := by
    intro old
    refine ⟨⟨none, []⟩, ?_, rfl⟩
    apply Prog.cut_later _ _ _ _ _ _ (quiet_touch _ _)
    have removed : (removeOld Option.isSome fun _ : Option Bytes => none).exec ⟨old, []⟩ = (.ok (), ⟨none, []⟩) := by
      cases old with
      | none => rfl
      | some held => exact quiet_touch _ _
    exact Prog.cut_later _ _ _ _ _ _ removed (Prog.cut_begins _ _)
  constructor
  · rintro ⟨faults, seen, cut, rfl⟩
    cases ((Prog.safe_iff _ _ _).mp (atomic_write_stages encode value path id start faults bytes encoded)).1 seen cut with
    | untouched same => exact ⟨[], _, Prog.cut_begins _ _, same.symm⟩
    | missing gone _ =>
        rw [gone]
        exact ⟨[], coarse _⟩
    | replaced new =>
        have ran := Prog.cut_exec (atomicWriteJson Option.isSome (fun _ => none) fun _ => some bytes) ⟨start.files path, []⟩
        rw [quiet_atomic] at ran
        exact ⟨[], _, ran, new.symm⟩
  · rintro ⟨faults, seen, cut, rfl⟩
    have moves : Moves (fun before after : Option Bytes => after = before ∨ after = none ∨ after = some bytes)
        (atomicWriteJson Option.isSome (fun _ => none) fun _ => some bytes) :=
      moves_atomic (fun _ => .inl rfl) _ _ _ (fun _ => .inr (.inl rfl)) fun _ => .inr (.inr rfl)
    have left := Prog.acts_cut (fun _ => .inl rfl) (fun one two three first second => ?_) _ moves _ seen cut
    · rcases left with same | gone | new
      · exact ⟨[], _, Prog.cut_begins _ _, same.symm⟩
      · rw [gone]
        exact ⟨[], missing_cut encode value path id start bytes encoded free⟩
      · rw [new]
        exact ⟨[], replaced_cut encode value path id start bytes encoded free⟩
    · rcases second with same | gone | new
      · rw [same]
        exact first
      · exact .inr (.inl gone)
      · exact .inr (.inr new)

omit encoded free

-- Where there was no document the new one appears at once.
theorem first_write_atomic (vacant : start.files path = none) (encoded : encode value = .ok bytes) (seen : Faulty FileSystem)
    (cut : (FileSystem.atomicWriteJson encode path value id).Cut ⟨start, faults⟩ seen) :
    seen.state.files path = none ∨ seen.state.files path = some bytes := by
  cases ((Prog.safe_iff _ _ _).mp (atomic_write_stages encode value path id start faults bytes encoded)).1 seen cut with
  | untouched same => exact .inl (same.trans vacant)
  | missing gone kept => exact .inl gone
  | replaced new => exact .inr new

-- Over an old document the replacement is atomic only when the call gives up before it
-- begins. Otherwise there is a moment at which the path holds nothing; the new
-- document is complete under its temporary name then.
theorem atomic_write_keeps_iff (content : Bytes) (held : start.files path = some content) :
    (KeepsDocument encode value path id start ↔ GivesUpEarly encode value path id start) ∧
    ∀ bytes, encode value = .ok bytes → ∀ faults seen, (FileSystem.atomicWriteJson encode path value id).Cut ⟨start, faults⟩ seen →
      Stage path id start bytes seen.state := by
  refine ⟨⟨fun keeps => ?_, fun early faults seen cut => ?_⟩, fun bytes encoded faults seen cut => ?_⟩
  · by_contra late
    rw [GivesUpEarly, not_or, not_not] at late
    cases encoded : encode value with
    | error error => exact late.1 ⟨error, encoded⟩
    | ok bytes =>
        obtain ⟨seen, cut, gone⟩ := missing_cut encode value path id start bytes encoded late.2
        rcases keeps [] seen cut with same | ⟨_, _, new⟩
        · rw [gone, held] at same
          cases same
        · rw [gone] at new
          cases new
  · exact .inl (((Prog.safe_iff _ _ _).mp (gives_up_safe encode value path id start faults early)).1 seen cut)
  · exact ((Prog.safe_iff _ _ _).mp (atomic_write_stages encode value path id start faults bytes encoded)).1 seen cut

end Crash

namespace AtomicSample

def path : FilePath := { parent := "operations", fileName := "journal.json" }

def old : Bytes := utf8 "1".toList

def new : Bytes := utf8 "2".toList

def start : FileSystem := FileSystem.set ⟨fun _ => none⟩ path (some old)

theorem held : start.files path = some old := set_same _ _ _

theorem free : start.files (temporarySibling path "write" 0) = none := set_other _ _ _ _ (temporary_apart path "write" 0).symm

end AtomicSample

theorem atomic_write_keeps_taken : KeepsDocument (fun bytes => .ok bytes) AtomicSample.new AtomicSample.path 0
    (AtomicSample.start.set (temporarySibling AtomicSample.path "write" 0) (some [])) := by
  have held := (set_other AtomicSample.start (temporarySibling AtomicSample.path "write" 0) AtomicSample.path (some [])
    (temporary_apart AtomicSample.path "write" 0)).trans AtomicSample.held
  refine (atomic_write_keeps_iff (fun bytes => .ok bytes) AtomicSample.new AtomicSample.path 0 _ AtomicSample.old held).1.mpr
    (.inr ?_)
  rw [set_same]
  exact Option.some_ne_none _

-- A crash between the removal and the renaming leaves no journal.
theorem replaced_journal_missing : AtomicSample.start.files AtomicSample.path = some AtomicSample.old ∧
    ∃ seen, (FileSystem.atomicWriteJson (fun bytes => .ok bytes) AtomicSample.path AtomicSample.new 0).Cut ⟨AtomicSample.start,
      []⟩ seen ∧
      seen.state.files AtomicSample.path = none :=
  ⟨AtomicSample.held, missing_cut
    (fun bytes => .ok bytes) AtomicSample.new AtomicSample.path 0 AtomicSample.start AtomicSample.new rfl
    AtomicSample.free⟩

end SessionSync.Local
