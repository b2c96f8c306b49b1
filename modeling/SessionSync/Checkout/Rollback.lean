import SessionSync.Checkout.Operation

set_option autoImplicit false

namespace SessionSync.Checkout

open SessionSync.Core Checked Local Tracking

variable {δ : Type}

structure Untouched (start disk : Disk δ) : Prop where
  live : ∀ slot, disk.entries (.live slot) = start.entries (.live slot)
  databases : ∀ path : String, disk.databases[path]? = start.databases[path]?

-- Nothing was moved yet.
structure Early (start : Disk δ) (operationId : Uuid) (disk : Disk δ) : Prop extends Untouched start disk where
  backup : ∀ slot, disk.entries (.backup operationId slot) = none
  failed : ∀ slot, disk.entries (.failed operationId slot) = none

def Restored (start : Disk δ) (operationId : Uuid) (disk : Disk δ) (slot : Slot) : Prop :=
  disk.entries (.backup operationId slot) = none ∧ disk.entries (.live slot) = start.entries (.live slot)

-- What was live before can be put back.
def Position (start : Disk δ) (operationId : Uuid) (disk : Disk δ) (slot : Slot) : Prop :=
  Restored start operationId disk slot ∨
    disk.entries (.backup operationId slot) = start.entries (.live slot) ∧
      (disk.entries (.live slot) ≠ none → disk.entries (.failed operationId slot) = none)

structure Restorable (start : Disk δ) (journal : CheckoutJournal) (disk : Disk δ) : Prop where
  position : ∀ slot, Position start journal.operationId disk slot
  outside : ∀ slot, slot ∉ journal.swaps.map (·.slot) → disk.entries (.live slot) = start.entries (.live slot)
  databases : ∀ path : String, path ∉ journal.databaseBackups.map (·.target) → disk.databases[path]? = start.databases[path]?
  copies : ∀ backup ∈ journal.databaseBackups, ∃ database,
    disk.databaseBackups (journal.operationId, backup.backup) = some database ∧ start.databases[backup.target]? = some database

-- The swaps say what was there when they were drawn up.
def Drawn (start : Disk δ) (swaps : List CheckoutSwap) : Prop := ∀ swap ∈ swaps, swap.originalExisted = start.has (.live swap.slot)

theorem rename_ok (source destination : Place) (disk after : Disk δ) :
    disk.rename source destination = .ok after ↔
      ∃ entry, disk.entries source = some entry ∧ (disk.put source none).put destination (some entry) = after := by
  simp only [Disk.rename, bind_ok, found_ok, pure_ok]

theorem has_iff (disk : Disk δ) (place : Place) : disk.has place = true ↔ disk.entries place ≠ none := by
  rw [Disk.has, Option.isSome_iff_ne_none]

theorem has_not (disk : Disk δ) (place : Place) : disk.has place = false ↔ disk.entries place = none := by
  rw [Disk.has, Option.isSome_eq_false_iff, Option.isNone_iff_eq_none]

-- A swap that was restored, or never begun, is not begun.
theorem restored_not_started (start : Disk δ) (operationId : Uuid) (swap : CheckoutSwap) (disk : Disk δ)
    (drawn : swap.originalExisted = start.has (.live swap.slot)) (restored : Restored start operationId disk swap.slot) :
    swapStarted operationId swap disk = false := by
  obtain ⟨backup, live⟩ := restored
  rw [swapStarted, (has_not _ _).mpr backup, Bool.false_or, drawn, Disk.has, Disk.has, live]
  cases start.entries (.live swap.slot) <;> rfl

theorem begun_position (start : Disk δ) (operationId : Uuid) (swap : CheckoutSwap) (disk : Disk δ)
    (drawn : swap.originalExisted = start.has (.live swap.slot)) (position : Position start operationId disk swap.slot)
    (begun : swapStarted operationId swap disk = true) :
    disk.entries (.backup operationId swap.slot) = start.entries (.live swap.slot) ∧
      (disk.entries (.live swap.slot) ≠ none → disk.entries (.failed operationId swap.slot) = none) := by
  rcases position with restored | moved
  · rw [restored_not_started start operationId swap disk drawn restored] at begun
    cases begun
  · exact moved

theorem rest_restored (start : Disk δ) (operationId : Uuid) (swap : CheckoutSwap) (disk : Disk δ)
    (drawn : swap.originalExisted = start.has (.live swap.slot)) (position : Position start operationId disk swap.slot)
    (idle : swapStarted operationId swap disk = false) : Restored start operationId disk swap.slot := by
  rcases position with restored | ⟨backup, _⟩
  · exact restored
  · rw [swapStarted, Bool.or_eq_false_iff, has_not, drawn, Disk.has, ← backup] at idle
    obtain ⟨none_, live⟩ := idle
    rw [none_, Option.isSome_none, Bool.not_false, Bool.true_and, has_not] at live
    exact ⟨none_, by rw [live, ← backup, none_]⟩

-- What holds all along a rollback of the operation, whose journal on the disk is
-- `stored` and in memory is `journal`; the swaps of the `done` slots are finished.
structure Rolling (start : Disk δ) (early : Prop) (started : Bool) (stored : Option CheckoutJournal) (journal : CheckoutJournal)
    (done : List Slot) (disk : Disk δ) : Prop where
  stored : disk.journals[journal.operationId]? = stored
  early : early → Early start journal.operationId disk
  restorable : started = true → Restorable start journal disk
  done : started = true → ∀ slot ∈ done, Restored start journal.operationId disk slot

section Swap

variable {start : Disk δ} {early : Prop} {started : Bool} {stored : Option CheckoutJournal} {journal : CheckoutJournal}
  {done : List Slot}

-- A move of one slot's entries leaves the other slots as they are.
theorem restorable_move (disk after : Disk δ) (slot : Slot) (inside : slot ∈ journal.swaps.map (·.slot))
    (elsewhere : ∀ other, other ≠ slot → after.entries (.live other) = disk.entries (.live other) ∧
      after.entries (.backup journal.operationId other) = disk.entries (.backup journal.operationId other) ∧
        after.entries (.failed journal.operationId other) = disk.entries (.failed journal.operationId other))
    (same : after = { disk with entries := after.entries }) (position : Position start journal.operationId after slot)
    (restorable : Restorable start journal disk) : Restorable start journal after := by
  obtain ⟨positions, outside, databases, copies⟩ := restorable
  refine ⟨fun other => ?_, fun other absent => ?_, ?_, ?_⟩
  · by_cases differ : other = slot
    · exact differ ▸ position
    · obtain ⟨live, backup, failed⟩ := elsewhere other differ
      rw [Position, Restored, live, backup, failed]
      exact positions other
  · have differ : other ≠ slot := fun equal => absent (equal ▸ inside)
    rw [(elsewhere other differ).1]
    exact outside other absent
  · rw [same]
    exact databases
  · rw [same]
    exact copies

-- A move of one slot's entries that leaves them restorable.
theorem rolling_move (disk after : Disk δ) (slot : Slot) (rolling : Rolling start early started stored journal done disk)
    (late : ¬ early) (open_ : slot ∉ done) (inside : slot ∈ journal.swaps.map (·.slot))
    (others : ∀ place, place ≠ .live slot → place ≠ .backup journal.operationId slot → place ≠ .failed journal.operationId slot →
      after.entries place = disk.entries place)
    (same : after = { disk with entries := after.entries })
    (position : started = true → Position start journal.operationId after slot) :
    Rolling start early started stored journal done after := by
  have elsewhere : ∀ other, other ≠ slot → after.entries (.live other) = disk.entries (.live other) ∧
      after.entries (.backup journal.operationId other) = disk.entries (.backup journal.operationId other) ∧
        after.entries (.failed journal.operationId other) = disk.entries (.failed journal.operationId other) := by
    intro other differ
    refine ⟨others _ ?_ ?_ ?_, others _ ?_ ?_ ?_, others _ ?_ ?_ ?_⟩ <;> simp [differ]
  refine ⟨?_, fun first => absurd first late, fun begun =>
    restorable_move disk after slot inside elsewhere same (position begun) (rolling.restorable begun), fun begun other member => ?_⟩
  · rw [same]
    exact rolling.stored
  · have differ : other ≠ slot := fun equal => open_ (equal ▸ member)
    obtain ⟨live, backup, _⟩ := elsewhere other differ
    rw [Restored, live, backup]
    exact rolling.done begun other member

variable (swap : CheckoutSwap) (drawn : swap.originalExisted = start.has (.live swap.slot)) (inside : swap ∈ journal.swaps)

include drawn

-- Only a swap that is neither early nor done is begun.
theorem begun_open (disk : Disk δ) (rolling : Rolling start early started stored journal done disk) (on : started = true)
    (begun : swapStarted journal.operationId swap disk = true) : ¬ early ∧ swap.slot ∉ done := by
  have idle : Restored start journal.operationId disk swap.slot → False := by
    intro restored
    rw [restored_not_started start journal.operationId swap disk drawn restored] at begun
    cases begun
  constructor
  · intro first
    have untouched := rolling.early first
    exact idle ⟨untouched.backup _, untouched.live _⟩
  · exact fun member => idle (rolling.done on _ member)

include inside

theorem rolling_preserve (disk after : Disk δ) (rolling : Rolling start early started stored journal done disk) (on : started = true)
    (begun : swapStarted journal.operationId swap disk = true)
    (moved : disk.rename (.live swap.slot) (.failed journal.operationId swap.slot) = .ok after) :
    Rolling start early started stored journal done after ∧ after.entries (.live swap.slot) = none ∧
      after.entries (.backup journal.operationId swap.slot) = start.entries (.live swap.slot) := by
  obtain ⟨late, open_⟩ := begun_open swap drawn disk rolling on begun
  obtain ⟨entry, present, rfl⟩ := (rename_ok _ _ _ _).mp moved
  obtain ⟨backup, _⟩ := begun_position start journal.operationId swap disk drawn ((rolling.restorable on).position _) begun
  have emptied : ((disk.put (.live swap.slot) none).put (.failed journal.operationId swap.slot)
    (some entry)).entries (.live swap.slot) =
      none := by simp [Disk.put]
  have kept : ((disk.put (.live swap.slot) none).put (.failed journal.operationId swap.slot) (some entry)).entries
      (.backup journal.operationId swap.slot) = start.entries (.live swap.slot) := by simp [Disk.put, backup]
  refine ⟨rolling_move disk _ swap.slot rolling late open_ (List.mem_map_of_mem inside) (fun place live _ failed => ?_) rfl
    fun _ => .inr ⟨kept, fun some_ => absurd emptied some_⟩, emptied, kept⟩
  simp [Disk.put, live, failed]

omit drawn in
theorem rolling_restore (disk after : Disk δ) (rolling : Rolling start early started stored journal done disk)
    (backup : disk.entries (.backup journal.operationId swap.slot) = start.entries (.live swap.slot)) (late : ¬ early)
    (open_ : swap.slot ∉ done)
    (moved : disk.rename (.backup journal.operationId swap.slot) (.live swap.slot) = .ok after) :
    Rolling start early started stored journal done after ∧ Restored start journal.operationId after swap.slot := by
  obtain ⟨entry, present, rfl⟩ := (rename_ok _ _ _ _).mp moved
  have restored : Restored start journal.operationId
      ((disk.put (.backup journal.operationId swap.slot) none).put (.live swap.slot) (some entry)) swap.slot := by
    constructor
    · simp [Disk.put]
    · rw [← backup, present]
      simp [Disk.put]
  refine ⟨rolling_move disk _ swap.slot rolling late open_ (List.mem_map_of_mem inside) (fun place live kept _ => ?_) rfl
    fun _ => .inl restored, restored⟩
  simp [Disk.put, live, kept]

end Swap

section Loop

variable {start : Disk δ} {early : Prop} {started : Bool} {stored : Option CheckoutJournal} {journal : CheckoutJournal}
  {done : List Slot}

theorem rolling_fewer (disk : Disk δ) (more : List Slot) (fewer : ∀ slot ∈ done, slot ∈ more)
    (rolling : Rolling start early started stored journal more disk) : Rolling start early started stored journal done disk :=
  ⟨rolling.stored, rolling.early, rolling.restorable, fun on slot member => rolling.done on slot (fewer slot member)⟩

theorem rolling_done (disk : Disk δ) (slot : Slot) (rolling : Rolling start early started stored journal done disk)
    (restored : started = true → Restored start journal.operationId disk slot) :
    Rolling start early started stored journal (slot :: done) disk :=
  ⟨rolling.stored, rolling.early, rolling.restorable, fun on => List.forall_mem_cons.mpr ⟨restored on, rolling.done on⟩⟩

-- Staged entries are no part of what is rolled back.
theorem rolling_staged (disk : Disk δ) (operationId : Uuid) (slot : Slot) (entry : Option Entry)
    (rolling : Rolling start early started stored journal done disk) :
    Rolling start early started stored journal done (disk.put (.staged operationId slot) entry) := by
  have live : ∀ other, (disk.put (.staged operationId slot) entry).entries (.live other) = disk.entries (.live other) :=
    fun other => by
    simp [Disk.put]
  have backup : ∀ other, (disk.put (.staged operationId slot) entry).entries (.backup journal.operationId other) =
      disk.entries (.backup journal.operationId other) := fun other => by simp [Disk.put]
  have failed : ∀ other, (disk.put (.staged operationId slot) entry).entries (.failed journal.operationId other) =
      disk.entries (.failed journal.operationId other) := fun other => by simp [Disk.put]
  refine ⟨rolling.stored, fun first => ?_, fun on => ?_, fun on other member => ?_⟩
  · obtain ⟨⟨same, databases⟩, backups, faileds⟩ := rolling.early first
    exact ⟨⟨fun other => (live other).trans (same other), databases⟩, fun other => (backup other).trans (backups other),
      fun other => (failed other).trans (faileds other)⟩
  · obtain ⟨positions, outside, databases, copies⟩ := rolling.restorable on
    refine ⟨fun other => ?_, fun other absent => (live other).trans (outside other absent), databases, copies⟩
    rw [Position, Restored, live, backup, failed]
    exact positions other
  · rw [Restored, live, backup]
    exact rolling.done on other member

-- A database is given the copy that was made of it.
theorem rolling_database (disk : Disk δ) (backup : CheckoutDatabaseBackup) (database : δ)
    (rolling : Rolling start early started stored journal done disk) (inside : backup ∈ journal.databaseBackups)
    (on : started = true) (copy : disk.databaseBackups (journal.operationId, backup.backup) = some database) :
    start.databases[backup.target]? = some database ∧
      Rolling start early started stored journal done { disk with databases := disk.databases.insert backup.target database } := by
  obtain ⟨positions, outside, databases, copies⟩ := rolling.restorable on
  obtain ⟨original, kept, before⟩ := copies backup inside
  rw [copy, Option.some.injEq] at kept
  subst kept
  refine ⟨before, rolling.stored, fun first => ?_, fun _ =>
    ⟨positions, outside, fun path absent => ?_, copies⟩, rolling.done⟩
  · obtain ⟨⟨live, same⟩, backups, faileds⟩ := rolling.early first
    refine ⟨⟨live, fun path => ?_⟩, backups, faileds⟩
    rw [Keyed.lookup_insert]
    split
    · next here => rw [here, before]
    · exact same path
  · have differ : path ≠ backup.target := fun equal => absent (equal ▸ List.mem_map_of_mem inside)
    rw [Keyed.lookup_insert, if_neg differ]
    exact databases path absent

end Loop

variable {start : Disk δ} {early : Prop} {started : Bool} {stored : Option CheckoutJournal} {journal : CheckoutJournal}
  {crash : Disk δ → Prop} (rolls : ∀ disk, Rolling start early started stored journal [] disk → crash disk)

section Round

variable {done : List Slot} (swap : CheckoutSwap) (drawn : swap.originalExisted = start.has (.live swap.slot))
  (inside : swap ∈ journal.swaps)

include rolls

theorem rolling_crash (disk : Disk δ) (rolling : Rolling start early started stored journal done disk) : crash disk :=
  rolls disk (rolling_fewer disk done (List.forall_mem_nil _) rolling)

theorem discard_staged_safe (slot : Slot) (device : Faulty (Disk δ))
    (rolling : Rolling start early started stored journal done device.state) :
    SafeAccess crash (discard (.staged journal.operationId slot)) (Prog.total fun _ seen =>
      Rolling start early started stored journal done seen.state ∧ (device.faults = [] → seen.faults = [])) device := by
  apply Prog.safe_bind
  apply Prog.safe_attempt
  apply safe_touch _ _ _ (rolling_crash rolls _ rolling)
  · intro after rest ran quiet
    cases ran
    have moved := rolling_staged device.state journal.operationId slot none rolling
    have ends := rolling_crash rolls _ moved
    exact ⟨ends, ends, moved, quiet⟩
  · intro error rest refused
    exact ⟨rolling_crash rolls _ rolling, rolling, fun quiet => (refused quiet).1⟩

include drawn inside

theorem preserve_failed_safe (device : Faulty (Disk δ)) (rolling : Rolling start early started stored journal done device.state)
    (on : started = true) (begun : swapStarted journal.operationId swap device.state = true)
    (present : device.state.has (.live swap.slot) = true) :
    SafeAccess crash (preserveFailed journal.operationId swap.slot) (fun outcome seen =>
      Rolling start early started stored journal done seen.state ∧
        seen.state.entries (.backup journal.operationId swap.slot) = start.entries (.live swap.slot) ∧
        (outcome = .ok () → seen.state.entries (.live swap.slot) = none) ∧
        (device.faults = [] → seen.faults = [] ∧ outcome = .ok ())) device := by
  obtain ⟨backup, failed⟩ := begun_position start journal.operationId swap device.state drawn
    ((rolling.restorable on).position _) begun
  have here := rolling_crash rolls _ rolling
  apply safe_probe _ _ _ _ here
  rw [(has_not _ _).mpr (failed ((has_iff _ _).mp present))]
  apply safe_touch _ _ _ here
  · intro after rest ran quiet
    obtain ⟨moved, live, kept⟩ := rolling_preserve swap drawn inside device.state after rolling on begun ran
    exact ⟨rolling_crash rolls _ moved, moved, kept, fun _ => live, fun none_ => ⟨quiet none_, rfl⟩⟩
  · intro error rest refused
    refine ⟨rolling, backup, nofun, fun none_ => ?_⟩
    obtain ⟨_, ran⟩ := refused none_
    obtain ⟨entry, held⟩ := Option.ne_none_iff_exists'.mp ((has_iff _ _).mp present)
    simp only [Disk.rename, held, found, bind, Except.bind] at ran
    cases ran

-- What is known between the two moves of a round.
structure Halfway (start : Disk δ) (early : Prop) (started : Bool) (stored : Option CheckoutJournal) (journal : CheckoutJournal)
    (done : List Slot) (slot : Slot) (begun : Bool) (preserved : Except String Unit) (disk : Disk δ) : Prop where
  rolling : Rolling start early started stored journal done disk
  moved : begun = true → ¬ early ∧ slot ∉ done ∧
    disk.entries (.backup journal.operationId slot) = start.entries (.live slot) ∧
      (preserved = .ok () → disk.entries (.live slot) = none)
  idle : begun = false → started = true → Restored start journal.operationId disk slot

theorem keep_failed_safe (device : Faulty (Disk δ)) (rolling : Rolling start early started stored journal done device.state)
    (begun : Bool) (same : begun = (started && swapStarted journal.operationId swap device.state)) :
    SafeAccess crash (keepFailed journal.operationId swap.slot begun) (Prog.total fun preserved seen =>
      Halfway start early started stored journal done swap.slot begun preserved seen.state ∧
        (begun = false → preserved = .ok ()) ∧ (device.faults = [] → seen.faults = [] ∧ preserved = .ok ())) device := by
  have here := rolling_crash rolls _ rolling
  apply safe_probe _ _ _ _ here
  cases begun with
  | false =>
      refine safe_done _ _ _ here ⟨⟨rolling, nofun, fun _ on => ?_⟩, fun _ => rfl, fun quiet => ⟨quiet, rfl⟩⟩
      rw [on, Bool.true_and] at same
      exact rest_restored start journal.operationId swap _ drawn ((rolling.restorable on).position _) same.symm
  | true =>
      obtain ⟨on, begun⟩ := (Bool.and_eq_true _ _).mp same.symm
      obtain ⟨late, open_⟩ := begun_open swap drawn device.state rolling on begun
      cases present : device.state.has (.live swap.slot) with
      | false =>
          have backup :=
            (begun_position start journal.operationId swap device.state drawn ((rolling.restorable on).position _) begun).1
          refine safe_done _ _ _ here ⟨⟨rolling, fun _ => ⟨late, open_, backup, fun _ => ?_⟩, nofun⟩, nofun,
            fun quiet => ⟨quiet, rfl⟩⟩
          exact (has_not _ _).mp present
      | true =>
          apply Prog.safe_attempt
          refine Prog.safe_mono _ _ _ _ (fun outcome seen _ left => ?_)
            (preserve_failed_safe rolls swap drawn inside device rolling on begun present)
          obtain ⟨rolling, backup, live, quiet⟩ := left
          exact ⟨⟨rolling, fun _ => ⟨late, open_, backup, live⟩, nofun⟩, nofun, quiet⟩

omit drawn in
theorem put_back_safe (device : Faulty (Disk δ)) (begun : Bool) (preserved : Except String Unit)
    (half : Halfway start early started stored journal done swap.slot begun preserved device.state) :
    SafeAccess crash (putBack journal.operationId swap.slot begun) (Prog.total fun restored seen =>
      Rolling start early started stored journal done seen.state ∧
        (preserved = .ok () → restored = .ok () → started = true → Restored start journal.operationId seen.state swap.slot) ∧
        (begun = false → restored = .ok ()) ∧ (device.faults = [] → seen.faults = [] ∧ restored = .ok ())) device := by
  have here := rolling_crash rolls _ half.rolling
  apply safe_probe _ _ _ _ here
  split
  · rename_i ready
    rw [Bool.and_eq_true, Bool.and_eq_true] at ready
    obtain ⟨⟨begun, present⟩, _⟩ := ready
    obtain ⟨late, open_, backup, _⟩ := half.moved begun
    apply Prog.safe_attempt
    apply safe_touch _ _ _ here
    · intro after rest ran quiet
      obtain ⟨moved, restored⟩ := rolling_restore swap inside device.state after half.rolling backup late open_ ran
      exact ⟨rolling_crash rolls _ moved, moved, fun _ _ _ => restored, fun _ => rfl, fun none_ => ⟨quiet none_, rfl⟩⟩
    · intro error rest refused
      refine ⟨half.rolling, fun _ => nofun, fun idle => absurd begun (idle ▸ Bool.false_ne_true), fun none_ => ?_⟩
      obtain ⟨_, ran⟩ := refused none_
      obtain ⟨entry, held⟩ := Option.ne_none_iff_exists'.mp ((has_iff _ _).mp present)
      simp only [Disk.rename, held, found, bind, Except.bind] at ran
      cases ran
  · rename_i unready
    refine safe_done _ _ _ here ⟨half.rolling, fun kept _ on => ?_, fun _ => rfl, fun quiet => ⟨quiet, rfl⟩⟩
    cases begun with
    | false => exact half.idle rfl on
    | true =>
        obtain ⟨_, _, backup, live⟩ := half.moved rfl
        rw [Bool.true_and, Bool.and_eq_true, not_and, (has_not _ _).mpr (live kept), Bool.not_false] at unready
        have gone : device.state.entries (.backup journal.operationId swap.slot) = none :=
          (has_not _ _).mp (Bool.eq_false_iff.mpr fun present => unready present rfl)
        exact ⟨gone, by rw [live kept, ← backup, gone]⟩

omit rolls drawn inside in
theorem failures_none (preserved restored : Except String Unit) :
    failureOf preserved ++ failureOf restored = [] ↔ preserved = .ok () ∧ restored = .ok () := by
  cases preserved <;> cases restored <;> simp [failureOf]

theorem rollback_swap_safe (device : Faulty (Disk δ)) (rolling : Rolling start early started stored journal done device.state) :
    SafeAccess crash (rollbackSwap journal.operationId started swap) (Prog.total fun failures seen =>
      Rolling start early started stored journal done seen.state ∧
        (failures = [] → Rolling start early started stored journal (swap.slot :: done) seen.state) ∧
        (started = false → failures = []) ∧ (device.faults = [] → seen.faults = [] ∧ failures = [])) device := by
  have here := rolling_crash rolls _ rolling
  apply safe_probe _ _ _ _ here
  apply safe_total _ _ _ _ _ (keep_failed_safe rolls swap drawn inside device rolling _ rfl)
  rintro preserved seen _ ⟨half, unmoved, quiet⟩
  apply safe_total _ _ _ _ _ (put_back_safe rolls swap inside seen _ preserved half)
  rintro restored later _ ⟨rolling, back, still, silent⟩
  have calm : device.faults = [] → later.faults = [] ∧ failureOf preserved ++ failureOf restored = [] := by
    intro none_
    obtain ⟨first, kept⟩ := quiet none_
    obtain ⟨second, moved⟩ := silent first
    exact ⟨second, (failures_none _ _).mpr ⟨kept, moved⟩⟩
  have idle : started = false → failureOf preserved ++ failureOf restored = [] := by
    intro off
    have begun : (started && swapStarted journal.operationId swap device.state) = false := by rw [off, Bool.false_and]
    exact (failures_none _ _).mpr ⟨unmoved begun, still begun⟩
  by_cases clean : failureOf preserved ++ failureOf restored = []
  · obtain ⟨kept, moved⟩ := (failures_none _ _).mp clean
    apply safe_total _ _ _ _ _
      (discard_staged_safe rolls swap.slot later (rolling_done later.state swap.slot rolling (back kept moved)))
    rintro _ last here ⟨rolled, silent⟩
    refine safe_done _ _ _ here ⟨rolling_fewer _ _ (fun slot => List.mem_cons_of_mem _) rolled, fun _ =>
      rolled, idle, fun none_ => ?_⟩
    exact ⟨silent (calm none_).1, clean⟩
  · apply safe_total _ _ _ _ _ (discard_staged_safe rolls swap.slot later rolling)
    rintro _ last here ⟨rolled, silent⟩
    exact safe_done _ _ _ here ⟨rolled, fun none_ => absurd none_ clean, idle, fun none_ => ⟨silent (calm none_).1, (calm none_).2⟩⟩

end Round

section Loops

include rolls

theorem rollback_swaps_safe (swaps : List CheckoutSwap) (drawn : Drawn start swaps) (inside : ∀ swap ∈ swaps, swap ∈ journal.swaps)
    (done : List Slot) (device : Faulty (Disk δ)) (rolling : Rolling start early started stored journal done device.state) :
    SafeAccess crash (rollbackSwaps journal.operationId started swaps) (Prog.total fun failures seen =>
      Rolling start early started stored journal done seen.state ∧
        (failures = [] → Rolling start early started stored journal (swaps.map (·.slot) ++ done) seen.state) ∧
        (started = false → failures = []) ∧ (device.faults = [] → seen.faults = [] ∧ failures = [])) device := by
  induction swaps generalizing done device with
  | nil =>
      exact safe_done _ _ _ (rolling_crash rolls _ rolling) ⟨rolling, fun _ => rolling, fun _ => rfl, fun quiet => ⟨quiet, rfl⟩⟩
  | cons swap rest ih =>
      obtain ⟨own, others⟩ := List.forall_mem_cons.mp drawn
      obtain ⟨here, later⟩ := List.forall_mem_cons.mp inside
      apply safe_total _ _ _ _ _ (rollback_swap_safe rolls swap own here device rolling)
      rintro failures seen _ ⟨rolled, clean, idle, quiet⟩
      by_cases none_ : failures = []
      · apply safe_total _ _ _ _ _ (ih others later (swap.slot :: done) seen (clean none_))
        rintro more last ends ⟨rolled, finished, still, silent⟩
        subst none_
        refine safe_done _ _ _ ends ⟨rolling_fewer _ _ (fun slot => List.mem_cons_of_mem _) rolled, fun none_ => ?_, still,
          fun calm => silent (quiet calm).1⟩
        refine rolling_fewer _ _ (fun slot member => ?_) (finished none_)
        simp only [List.map_cons, List.cons_append, List.mem_cons, List.mem_append] at member ⊢
        exact or_left_comm.mp member
      · apply safe_total _ _ _ _ _ (ih others later done seen rolled)
        rintro more last ends ⟨rolled, _, still, silent⟩
        refine safe_done _ _ _ ends ⟨rolled, fun none_' => ?_, fun off => absurd (idle off) none_, fun calm =>
          absurd (quiet calm).2 none_⟩
        exact absurd (List.append_eq_nil_iff.mp none_').1 none_

theorem restore_databases_safe (backups : List CheckoutDatabaseBackup) (inside : ∀ backup ∈ backups, backup ∈ journal.databaseBackups)
    (on : backups ≠ [] → started = true) (done : List Slot) (paths : List String) (device : Faulty (Disk δ))
    (rolling : Rolling start early started stored journal done device.state)
    (same : ∀ path ∈ paths, device.state.databases[path]? = start.databases[path]?) :
    SafeAccess crash (restoreDatabases journal.operationId backups) (Prog.total fun failures seen =>
      Rolling start early started stored journal done seen.state ∧
        (failures = [] → ∀ path, path ∈ backups.map (·.target) ∨ path ∈ paths →
          seen.state.databases[path]? = start.databases[path]?) ∧
        (backups = [] → failures = []) ∧ (device.faults = [] → seen.faults = [] ∧ failures = [])) device := by
  induction backups generalizing paths device with
  | nil =>
      refine safe_done _ _ _ (rolling_crash rolls _ rolling) ⟨rolling, fun _ path member => ?_, fun _ =>
        rfl, fun quiet => ⟨quiet, rfl⟩⟩
      exact same path (member.resolve_left List.not_mem_nil)
  | cons backup rest ih =>
      obtain ⟨here, later⟩ := List.forall_mem_cons.mp inside
      have begun := on (List.cons_ne_nil _ _)
      have on_ : rest ≠ [] → started = true := fun _ => begun
      apply safe_total _ _ (fun restored seen => Rolling start early started stored journal done seen.state ∧
        (∀ path ∈ paths, seen.state.databases[path]? = start.databases[path]?) ∧
        (restored = .ok () → seen.state.databases[backup.target]? = start.databases[backup.target]?) ∧
        (device.faults = [] → seen.faults = [] ∧ restored = .ok ()))
      · apply Prog.safe_attempt
        apply safe_touch _ _ _ (rolling_crash rolls _ rolling)
        · intro after rest_ ran quiet
          simp only [bind_ok, found_ok, pure_ok] at ran
          obtain ⟨database, copy, rfl⟩ := ran
          obtain ⟨before, moved⟩ := rolling_database device.state backup database rolling here begun copy
          have own : (device.state.databases.insert backup.target database)[backup.target]? = start.databases[backup.target]? := by
            rw [Keyed.lookup_insert, if_pos rfl, before]
          refine ⟨rolling_crash rolls _ moved, moved, fun path member => ?_, fun _ => own, fun none_ => ⟨quiet none_, rfl⟩⟩
          by_cases target : path = backup.target
          · exact target ▸ own
          · exact ((Keyed.lookup_insert _ _ _ _).trans (if_neg target)).trans (same path member)
        · intro error rest_ refused
          refine ⟨rolling, same, fun impossible => absurd impossible (error_ne_ok _ _), fun none_ => ?_⟩
          obtain ⟨_, ran⟩ := refused none_
          obtain ⟨database, copy, _⟩ := (rolling.restorable begun).copies backup here
          simp only [copy, found, bind, Except.bind, pure, Except.pure] at ran
          cases ran
      · rintro restored seen _ ⟨rolled, kept, own, quiet⟩
        cases restored with
        | error error =>
            apply safe_total _ _ _ _ _ (ih later on_ paths seen rolled kept)
            rintro failures last ends ⟨rolled, _, _, silent⟩
            have stopped : error :: failures ≠ [] := List.cons_ne_nil _ _
            refine safe_done _ _ _ ends ⟨rolled, fun none_ => absurd none_ stopped, fun none_ =>
              absurd none_ (List.cons_ne_nil _ _), ?_⟩
            exact fun calm => absurd (quiet calm).2 (error_ne_ok _ _)
        | ok _ =>
            have more : ∀ path ∈ backup.target :: paths, seen.state.databases[path]? = start.databases[path]? :=
              List.forall_mem_cons.mpr ⟨own rfl, kept⟩
            apply safe_total _ _ _ _ _ (ih later on_ (backup.target :: paths) seen rolled more)
            rintro failures last ends ⟨rolled, finished, _, silent⟩
            refine safe_done _ _ _ ends ⟨rolled, fun none_ path member => finished none_ path ?_, fun none_ =>
              absurd none_ (List.cons_ne_nil _ _), fun calm => silent (quiet calm).1⟩
            simp only [List.map_cons, List.mem_cons] at member ⊢
            rcases member with (own | later) | old
            · exact .inr (.inl own)
            · exact .inl later
            · exact .inr (.inr old)

end Loops

end SessionSync.Checkout
