import SessionSync.Checkout.Recovering

set_option autoImplicit false

namespace SessionSync.Checkout

open SessionSync.Core Checked Local Tracking

variable {δ : Type} {env : CheckoutEnv δ} {input : CheckoutInput} {start : Disk δ}

-- The steps of a checkout either go on or leave a journal that can be rolled back.
def Leaves {α : Type} (env : CheckoutEnv δ) (input : CheckoutInput) (start : Disk δ) (good : α → Disk δ → Prop) :
    Except (CheckoutJournal × String) α → Faulty (Disk δ) → Prop
  | .ok value, seen => good value seen.state
  | .error (journal, _), seen => Undoable env input start journal seen.state

theorem leaves_then {α β : Type} (prog : Journaled δ α) (next : α → Journaled δ β) (first : α → Disk δ → Prop)
    (good : β → Disk δ → Prop) (device : Faulty (Disk δ))
    (begins : SafeAccess (Ready env input start) prog (Leaves env input start first) device)
    (goes : ∀ value seen, first value seen.state →
      SafeAccess (Ready env input start) (next value) (Leaves env input start good) seen) :
    SafeAccess (Ready env input start) (prog >>= next) (Leaves env input start good) device :=
  safe_then _ _ _ _ _ begins (fun value seen _ left => goes value seen left) fun _ _ _ left => left

-- A part during which the journal in memory stays the same.
theorem leaves_during {α : Type} (journal : CheckoutJournal) (prog : Access δ α) (good : α → Disk δ → Prop) (device : Faulty (Disk δ))
    (safe : SafeAccess (Ready env input start) prog (fun outcome seen => (∀ value, outcome = .ok value → good value seen.state) ∧
      (∀ error, outcome = .error error → Undoable env input start journal seen.state)) device) :
    SafeAccess (Ready env input start) (during journal prog) (Leaves env input start good) device := by
  apply Prog.safe_map_error
  refine Prog.safe_mono _ _ _ _ (fun outcome seen _ left => ?_) safe
  cases outcome with
  | ok value => exact left.1 value rfl
  | error error => exact left.2 error rfl

theorem undoable_ready (journal : CheckoutJournal) (disk : Disk δ) (undoable : Undoable env input start journal disk) :
    Ready env input start disk := rolling_ready undoable disk (undoable_rolling undoable)

theorem undoable_dropped (journal : CheckoutJournal) (disk : Disk δ) (undoable : Undoable env input start journal disk) :
    Undoable env input start journal (disk.dropJournal journal.operationId) := by
  refine ⟨undoable.draft, fun before => early_journals _ _ (undoable.early before), fun begun =>
    restorable_journals _ _ (undoable.restorable begun), fun stored found => ?_⟩
  rw [← undoable.draft.own, dropped_lookup] at found
  cases found

theorem undoable_set (journal : CheckoutJournal) (disk : Disk δ) (unfinished : journal.status ≠ .completed)
    (undoable : Undoable env input start journal disk) : Undoable env input start journal (disk.setJournal journal) := by
  have early : journal.status.writesLive = false → Early start journal.operationId (disk.setJournal journal) :=
    fun before => early_journals _ _ (undoable.early before)
  refine ⟨undoable.draft, early, fun begun => restorable_journals _ _ (undoable.restorable begun), fun stored found => ?_⟩
  rw [← undoable.draft.own, set_lookup] at found
  cases found
  refine ⟨undoable.draft, unfinished, ?_⟩
  cases begun : journal.status.writesLive with
  | false => exact .early begun (early begun)
  | true => exact .live begun begun rfl rfl

-- The journal is written anew.
theorem leaves_written (journal : CheckoutJournal) (unfinished : journal.status ≠ .completed) (device : Faulty (Disk δ))
    (before : Undoable env input start journal device.state) :
    SafeAccess (Ready env input start) (during journal (writeCheckoutJournal journal))
      (Leaves env input start fun _ disk => disk = device.state.setJournal journal) device := by
  apply leaves_during
  have dropped := undoable_dropped journal device.state before
  refine Prog.safe_mono _ _ _ _ (fun outcome seen _ written => ⟨fun _ ran => written.2.1 ran, fun error failed => ?_⟩)
    (write_journal_safe journal before.draft.valid device (undoable_ready _ _ before) (undoable_ready _ _ dropped)
      (undoable_ready _ _ (undoable_set journal device.state unfinished before)))
  rcases written.2.2 (failed ▸ nofun) with same | same
  · rw [same]
    exact before
  · rw [same]
    exact dropped

theorem leaves_entered (journal : CheckoutJournal) (status : CheckoutStatus) (unfinished : status ≠ .completed)
    (device : Faulty (Disk δ)) (before : Undoable env input start { journal with status := status } device.state) :
    SafeAccess (Ready env input start) (enter journal status) (Leaves env input start fun next disk =>
      next = { journal with status := status } ∧ disk = device.state.setJournal { journal with status := status }) device := by
  apply leaves_then _ _ _ _ _ (leaves_written _ unfinished device before)
  rintro _ seen same
  refine ⟨?_, rfl, same⟩
  change Ready env input start seen.state
  rw [same]
  exact undoable_ready _ _ (undoable_set _ _ unfinished before)

section Early

variable (journal : CheckoutJournal)

-- Nothing was moved, and of the databases that the journal names there are copies.
structure Gathered (start : Disk δ) (journal : CheckoutJournal) (disk : Disk δ) : Prop where
  stored : disk.journals[journal.operationId]? = some journal
  early : Early start journal.operationId disk
  copies : ∀ backup ∈ journal.databaseBackups, ∃ database,
    disk.databaseBackups (journal.operationId, backup.backup) = some database ∧ start.databases[backup.target]? = some database

variable {journal} {disk : Disk δ} (draft : Draft env input start journal) (before : journal.status.writesLive = false)
  (unfinished : journal.status ≠ .completed) (gathered : Gathered start journal disk)

include draft before unfinished gathered

theorem gathered_undoable : Undoable env input start journal disk := by
  refine ⟨draft, fun _ => gathered.early, fun begun => ?_, fun stored found => ?_⟩
  · rw [before] at begun
    cases begun
  · rw [← draft.own, gathered.stored] at found
    cases found
    exact ⟨draft, unfinished, .early before gathered.early⟩

-- The same in memory one status further, or with one copy more.
theorem gathered_next (next : CheckoutJournal) (drawn : Draft env input start next) (still : next.status.writesLive = false) :
    Undoable env input start next disk := by
  have same : next.operationId = journal.operationId := drawn.own.trans draft.own.symm
  refine ⟨drawn, fun _ => same ▸ gathered.early, fun begun => ?_, fun stored found => ?_⟩
  · rw [still] at begun
    cases begun
  · rw [← draft.own, gathered.stored] at found
    cases found
    exact ⟨draft, unfinished, .early before gathered.early⟩

theorem gathered_applying : Undoable env input start { journal with status := .applying } disk := by
  refine ⟨draft_status journal .applying journal.error draft, nofun, fun _ => ?_, fun stored found => ?_⟩
  · exact ⟨fun slot => .inl ⟨gathered.early.backup slot, gathered.early.live slot⟩, fun slot _ => gathered.early.live slot,
      fun path _ => gathered.early.databases path, gathered.copies⟩
  · rw [← draft.own, gathered.stored] at found
    cases found
    exact ⟨draft, unfinished, .early before gathered.early⟩

end Early

section Staging

variable (journal : CheckoutJournal) (draft : Draft env input start journal)

theorem put_elsewhere (disk : Disk δ) (place other : Place) (entry : Option Entry) (apart : other ≠ place) :
    (disk.put place entry).entries other = disk.entries other := if_neg apart

theorem early_staged (operationId : Uuid) (disk : Disk δ) (place : Uuid) (slot : Slot) (entry : Option Entry)
    (early : Early start operationId disk) : Early start operationId (disk.put (.staged place slot) entry) :=
  ⟨⟨fun other => (put_elsewhere disk (.staged place slot) (.live other) entry nofun).trans (early.live other), early.databases⟩,
    fun other => (put_elsewhere disk (.staged place slot) (.backup operationId other) entry nofun).trans (early.backup other),
    fun other => (put_elsewhere disk (.staged place slot) (.failed operationId other) entry nofun).trans (early.failed other)⟩

theorem stage_moves (threads : List ThreadBundle) :
    Moves (fun disk after => Gathered start journal disk → Gathered start journal after)
      (stageRollouts env journal.operationId threads) := by
  apply Prog.acts_for_each
  intro thread
  refine Prog.acts_bind _ _ (keeps_fallible (Gathered start journal)) fun _ =>
    Prog.acts_bind _ _ (Prog.steps_of_except _ _) fun place => ?_
  refine keeps_touch (Gathered start journal) _ fun disk after ran gathered => ?_
  simp only [bind_ok, pure_ok] at ran
  obtain ⟨files, _, _, _, bytes, _, rfl⟩ := ran
  exact ⟨gathered.stored, early_staged _ _ _ _ _ gathered.early, gathered.copies⟩

end Staging

-- A part that keeps what a rollback needs.
theorem leaves_kept {α : Type} (journal : CheckoutJournal) (inv : Disk δ → Prop)
    (undo : ∀ disk, inv disk → Undoable env input start journal disk) (prog : Access δ α)
    (moves : Moves (fun disk after => inv disk → inv after) prog) (device : Faulty (Disk δ)) (here : inv device.state) :
    SafeAccess (Ready env input start) (during journal prog) (Leaves env input start fun _ disk => inv disk) device := by
  apply leaves_during
  refine safe_weaken inv _ (fun disk kept => undoable_ready _ _ (undo disk kept)) _ _ _ ?_
  exact Prog.safe_mono _ _ _ _ (fun _ seen _ kept => ⟨fun _ _ => kept, fun _ _ => undo seen.state kept⟩)
    (safe_of_moves inv prog moves device here)

section Copies

variable {journal : CheckoutJournal}

-- A copy that the journal does not name yet.
theorem gathered_copied (disk : Disk δ) (index : Nat) (database : δ)
    (below : ∀ backup ∈ journal.databaseBackups, backup.backup < index) (gathered : Gathered start journal disk) :
    Gathered start journal { disk with
      databaseBackups := fun key => if key = (journal.operationId, index) then some database else disk.databaseBackups key } := by
  refine ⟨gathered.stored, ⟨⟨gathered.early.live, gathered.early.databases⟩, gathered.early.backup, gathered.early.failed⟩, ?_⟩
  intro backup member
  obtain ⟨original, copy, same⟩ := gathered.copies backup member
  refine ⟨original, (if_neg fun equal => ?_).trans copy, same⟩
  exact absurd (congrArg Prod.snd equal) (Nat.ne_of_lt (below backup member))

def CheckoutJournal.adding (journal : CheckoutJournal) (more : List CheckoutDatabaseBackup) : CheckoutJournal :=
  { journal with databaseBackups := journal.databaseBackups ++ more }

theorem draft_adding (more : List CheckoutDatabaseBackup) (draft : Draft env input start journal) :
    Draft env input start (journal.adding more) := ⟨draft.own, draft.valid, draft.drawn, draft.update, draft.target⟩

theorem back_up_safe (paths : List String) (journal : CheckoutJournal) (index : Nat) (draft : Draft env input start journal)
    (before : journal.status.writesLive = false) (unfinished : journal.status ≠ .completed)
    (below : ∀ backup ∈ journal.databaseBackups, backup.backup < index) (device : Faulty (Disk δ))
    (gathered : Gathered start journal device.state) :
    SafeAccess (Ready env input start) (backUpDatabases journal index paths) (Leaves env input start fun final disk =>
      Gathered start final disk ∧ ∃ more, final = journal.adding more ∧ more.map (·.target) = paths) device := by
  induction paths generalizing journal index device with
  | nil =>
      have here := undoable_ready _ _ (gathered_undoable draft before unfinished gathered)
      refine ⟨here, gathered, [], ?_, rfl⟩
      rw [CheckoutJournal.adding, List.append_nil]
  | cons path rest ih =>
      have undo : ∀ disk, Gathered start journal disk → Undoable env input start journal disk :=
        fun disk kept => gathered_undoable draft before unfinished kept
      let next := journal.adding [⟨path, index⟩]
      have drawn : Draft env input start next := draft_adding [⟨path, index⟩] draft
      apply leaves_then _ _ (fun _ disk => Gathered start journal disk ∧ ∃ database,
        disk.databaseBackups (journal.operationId, index) = some database ∧ start.databases[path]? = some database)
      · apply leaves_during
        apply safe_touch _ _ _ (undoable_ready _ _ (undo _ gathered))
        · intro after rest ran _
          simp only [bind_ok, found_ok, pure_ok] at ran
          obtain ⟨database, present, rfl⟩ := ran
          have copied := gathered_copied device.state index database below gathered
          refine ⟨undoable_ready _ _ (undo _ copied), fun _ _ => ⟨copied, database, if_pos rfl, ?_⟩, fun _ => nofun⟩
          rw [← gathered.early.databases, present]
        · exact fun error rest _ => ⟨fun _ => nofun, fun _ _ => undo _ gathered⟩
      · rintro _ seen ⟨kept, database, copy, original⟩
        apply leaves_then _ _ _ _ _
          (leaves_written next unfinished seen (gathered_next draft before unfinished kept next drawn before))
        rintro _ ⟨_, faults⟩ rfl
        have more : Gathered start next (seen.state.setJournal next) := by
          refine ⟨set_lookup next, early_journals _ _ kept.early, fun backup member => ?_⟩
          rcases List.mem_append.mp member with old | new
          · exact kept.copies backup old
          · cases List.mem_singleton.mp new
            exact ⟨database, copy, original⟩
        have above : ∀ backup ∈ next.databaseBackups, backup.backup < index + 1 := by
          intro backup member
          rcases List.mem_append.mp member with old | new
          · exact Nat.lt_succ_of_lt (below backup old)
          · cases List.mem_singleton.mp new
            exact Nat.lt_succ_self index
        refine Prog.safe_mono _ _ _ _ (fun outcome last _ left => ?_)
          (ih next (index + 1) drawn before unfinished above ⟨_, faults⟩ more)
        cases outcome with
        | error error => exact left
        | ok final =>
            obtain ⟨ends, others, rfl, targets⟩ := left
            refine ⟨ends, ⟨path, index⟩ :: others, ?_, congrArg (path :: ·) targets⟩
            simp only [next, CheckoutJournal.adding, List.append_assoc, List.cons_append, List.nil_append]

end Copies

section Installing

-- The swaps of the `pending` slots are still to come.
structure Installing (start : Disk δ) (journal : CheckoutJournal) (pending : List Slot) (disk : Disk δ) : Prop where
  stored : disk.journals[journal.operationId]? = some journal
  restorable : Restorable start journal disk
  failed : ∀ slot, disk.entries (.failed journal.operationId slot) = none
  pending : ∀ slot ∈ pending, Restored start journal.operationId disk slot

variable {journal : CheckoutJournal} {disk : Disk δ}

theorem installing_none {pending : List Slot} (installing : Installing start journal pending disk) :
    Installing start journal [] disk := ⟨installing.stored, installing.restorable, installing.failed, List.forall_mem_nil _⟩

theorem installing_undoable {pending : List Slot} (draft : Draft env input start journal) (begun : journal.status.writesLive = true)
    (installing : Installing start journal pending disk) : Undoable env input start journal disk := by
  refine ⟨draft, fun before => ?_, fun _ => installing.restorable, fun stored found => ?_⟩
  · rw [begun] at before
    cases before
  · rw [← draft.own, installing.stored] at found
    cases found
    refine ⟨draft, fun completed => ?_, .live begun begun rfl rfl⟩
    rw [completed] at begun
    cases begun

theorem installing_next (status : CheckoutStatus) (draft : Draft env input start journal) (begun : journal.status.writesLive = true)
    (also : status.writesLive = true) (installing : Installing start journal [] disk) :
    Undoable env input start { journal with status := status } disk := by
  have undoable := installing_undoable draft begun installing
  refine ⟨draft_status journal status journal.error draft, fun before => ?_, fun _ =>
    restorable_alike journal _ rfl rfl rfl installing.restorable, fun stored found => ?_⟩
  · rw [show ({ journal with status := status } : CheckoutJournal).status.writesLive = true from also] at before
    cases before
  · obtain ⟨drawn, unfinished, _⟩ := undoable.stored stored found
    rw [← draft.own, installing.stored] at found
    cases found
    exact ⟨drawn, unfinished, .live begun also rfl rfl⟩

theorem installing_set (status : CheckoutStatus) (installing : Installing start journal [] disk) :
    Installing start { journal with status := status } [] (disk.setJournal { journal with status := status }) :=
  ⟨set_lookup _, restorable_journals _ _ (restorable_alike journal _ rfl rfl rfl installing.restorable), installing.failed,
    List.forall_mem_nil _⟩

theorem gathered_installing (slots : List Slot) (gathered : Gathered start journal disk) :
    Installing start { journal with status := .applying } slots (disk.setJournal { journal with status := .applying }) := by
  have early := gathered.early
  exact ⟨set_lookup _, ⟨fun slot => .inl ⟨early.backup slot, early.live slot⟩, fun slot _ => early.live slot,
    fun path _ => early.databases path, gathered.copies⟩, early.failed, fun slot _ => ⟨early.backup slot, early.live slot⟩⟩

-- A move of one slot's entries that leaves them restorable.
theorem installing_move (after : Disk δ) (slot : Slot) (rest : List Slot) (fresh : slot ∉ rest)
    (inside : slot ∈ journal.swaps.map (·.slot)) (installing : Installing start journal rest disk)
    (others : ∀ place, place ≠ .live slot → place ≠ .backup journal.operationId slot → place ≠ .staged journal.operationId slot →
      after.entries place = disk.entries place)
    (same : after = { disk with entries := after.entries }) (position : Position start journal.operationId after slot) :
    Installing start journal rest after := by
  have still : ∀ other, after.entries (.failed journal.operationId other) = disk.entries (.failed journal.operationId other) :=
    fun other => others _ nofun nofun nofun
  have elsewhere : ∀ other, other ≠ slot → after.entries (.live other) = disk.entries (.live other) ∧
      after.entries (.backup journal.operationId other) = disk.entries (.backup journal.operationId other) ∧
        after.entries (.failed journal.operationId other) = disk.entries (.failed journal.operationId other) := by
    intro other differ
    refine ⟨others _ ?_ ?_ ?_, others _ ?_ ?_ ?_, still other⟩ <;> simp [differ]
  refine ⟨?_, restorable_move disk after slot inside elsewhere same position installing.restorable,
    fun other => (still other).trans (installing.failed other), fun other member => ?_⟩
  · rw [same]
    exact installing.stored
  · have differ : other ≠ slot := fun equal => fresh (equal ▸ member)
    obtain ⟨live, backup, _⟩ := elsewhere other differ
    rw [Restored, live, backup]
    exact installing.pending other member

-- The live entry of the slot is in the backup directory, if there was one.
structure Emptied (start : Disk δ) (journal : CheckoutJournal) (rest : List Slot) (slot : Slot) (disk : Disk δ) : Prop where
  installing : Installing start journal rest disk
  backup : disk.entries (.backup journal.operationId slot) = start.entries (.live slot)

variable (draft : Draft env input start journal) (begun : journal.status.writesLive = true) (swap : CheckoutSwap)
  (rest : List Slot) (fresh : swap.slot ∉ rest) (inside : swap ∈ journal.swaps)

include draft begun fresh inside

theorem move_live_safe (device : Faulty (Disk δ)) (installing : Installing start journal (swap.slot :: rest) device.state) :
    SafeAccess (Ready env input start) (moveLive journal.operationId swap.slot) (fun outcome seen =>
      Installing start journal [] seen.state ∧ (outcome = .ok () → Emptied start journal rest swap.slot seen.state)) device := by
  have here := undoable_ready _ _ (installing_undoable draft begun installing)
  obtain ⟨⟨gone, live⟩, pending⟩ := List.forall_mem_cons.mp installing.pending
  have later : Installing start journal rest device.state :=
    ⟨installing.stored, installing.restorable, installing.failed, pending⟩
  apply safe_probe _ _ _ _ here
  cases present : device.state.has (.live swap.slot) with
  | false =>
      refine safe_done _ _ _ here ⟨installing_none installing, fun _ => ⟨later, ?_⟩⟩
      rw [gone, ← live, (has_not _ _).mp present]
  | true =>
      apply safe_touch _ _ _ here
      · intro after faults ran _
        obtain ⟨entry, held, rfl⟩ := (rename_ok _ _ _ _).mp ran
        have kept : ((device.state.put (.live swap.slot) none).put (.backup journal.operationId swap.slot) (some entry)).entries
            (.backup journal.operationId swap.slot) = start.entries (.live swap.slot) := by
          rw [← live, held]
          simp [Disk.put]
        have moved := installing_move _ swap.slot rest fresh (List.mem_map_of_mem inside) later
          (fun place apart other _ => by simp [Disk.put, apart, other]) rfl (.inr ⟨kept, fun _ =>
            by simpa [Disk.put] using installing.failed swap.slot⟩)
        exact ⟨undoable_ready _ _ (installing_undoable draft begun moved), installing_none moved, fun _ => ⟨moved, kept⟩⟩
      · exact fun error faults _ => ⟨installing_none installing, no_value error ()⟩

theorem install_swap_safe (prepare : Access δ Unit)
    (still : ∀ device : Faulty (Disk δ), SafeAccess (fun seen => seen = device.state) prepare (fun _ _ => True) device)
    (device : Faulty (Disk δ)) (installing : Installing start journal (swap.slot :: rest) device.state) :
    SafeAccess (Ready env input start) (installSwap prepare journal.operationId swap) (fun outcome seen =>
      Installing start journal [] seen.state ∧ (outcome = .ok () → Installing start journal rest seen.state)) device := by
  have here := undoable_ready _ _ (installing_undoable draft begun installing)
  have stays := installing_none installing
  apply safe_probe _ _ _ _ here
  apply safe_check _ _ _ _ here
  rotate_left
  · exact fun error _ => ⟨stays, no_value error ()⟩
  intro _ _
  apply safe_then _ _ _ _ _ (safe_reads prepare (fun _ _ => True) device here (still device))
  rotate_left
  · exact fun error seen _ left => ⟨left.1 ▸ stays, no_value error ()⟩
  rintro _ ⟨state, faults⟩ _ ⟨same, _⟩
  obtain rfl : device.state = state := same.symm
  apply safe_then _ _ _ _ _ (move_live_safe draft begun swap rest fresh inside ⟨device.state, faults⟩ installing)
  · rintro _ seen kept ⟨_, moved⟩
    obtain ⟨halfway, backup⟩ := moved rfl
    apply safe_touch _ _ _ kept
    · intro after left ran _
      obtain ⟨entry, held, rfl⟩ := (rename_ok _ _ _ _).mp ran
      have placed :=
        installing_move ((seen.state.put (.staged journal.operationId swap.slot) none).put (.live swap.slot) (some entry))
        swap.slot rest fresh (List.mem_map_of_mem inside) halfway
        (fun place apart _ other => by simp [Disk.put, apart, other]) rfl (.inr ⟨by simpa [Disk.put] using backup, fun _ =>
          by simpa [Disk.put] using halfway.failed swap.slot⟩)
      exact ⟨undoable_ready _ _ (installing_undoable draft begun placed), installing_none placed, fun _ => placed⟩
    · exact fun error left _ => ⟨installing_none halfway, no_value error ()⟩
  · exact fun error seen _ left => ⟨left.1, no_value error ()⟩

end Installing

section Writes

variable {journal : CheckoutJournal} (draft : Draft env input start journal) (begun : journal.status.writesLive = true)

include draft begun

-- The swaps one after the other, with those in `later` still to come.
theorem install_swaps_safe {ι : Type} (swapOf : ι → CheckoutSwap) (prepare : Access δ Unit)
    (still : ∀ device : Faulty (Disk δ), SafeAccess (fun seen => seen = device.state) prepare (fun _ _ => True) device)
    (items : List ι) (later : List Slot) (inside : ∀ item ∈ items, swapOf item ∈ journal.swaps)
    (apart : (items.map (fun item => (swapOf item).slot) ++ later).Nodup) (device : Faulty (Disk δ))
    (installing : Installing start journal (items.map (fun item => (swapOf item).slot) ++ later) device.state) :
    SafeAccess (Ready env input start) (Prog.forEach items fun item => installSwap prepare journal.operationId (swapOf item))
      (fun outcome seen => Installing start journal [] seen.state ∧ (outcome = .ok () → Installing start journal later seen.state))
      device := by
  induction items generalizing device with
  | nil =>
      have here := undoable_ready _ _ (installing_undoable draft begun installing)
      exact safe_done _ _ _ here ⟨installing_none installing, fun _ => installing⟩
  | cons item rest ih =>
      obtain ⟨own, others⟩ := List.forall_mem_cons.mp inside
      obtain ⟨fresh, distinct⟩ := List.nodup_cons.mp apart
      apply safe_then _ _ _ _ _ (install_swap_safe draft begun (swapOf item) _ fresh own prepare still device installing)
      · exact fun _ seen _ left => ih others distinct seen (left.2 rfl)
      · exact fun error seen _ left => ⟨left.1, no_value error ()⟩

theorem update_database_safe (update : δ → Except String δ) (path : String) (known : path ∈ journal.databaseBackups.map (·.target))
    (device : Faulty (Disk δ)) (installing : Installing start journal [] device.state) :
    SafeAccess (Ready env input start) (updateDatabase update path)
      (fun _ seen => Installing start journal [] seen.state) device := by
  apply safe_touch _ _ _ (undoable_ready _ _ (installing_undoable draft begun installing))
  · intro after rest ran _
    simp only [bind_ok, found_ok, pure_ok] at ran
    obtain ⟨old, _, database, _, rfl⟩ := ran
    obtain ⟨stored, ⟨positions, outside, databases, copies⟩, failed, pending⟩ := installing
    have updated : Installing start journal []
        { device.state with databases := device.state.databases.insert path database } := by
      refine ⟨stored, ⟨positions, outside, fun other absent => ?_, copies⟩, failed, pending⟩
      have differ : other ≠ path := fun equal => absent (equal ▸ known)
      rw [Keyed.lookup_insert, if_neg differ]
      exact databases other absent
    exact ⟨undoable_ready _ _ (installing_undoable draft begun updated), updated⟩
  · exact fun error rest _ => installing

theorem update_databases_safe (update : δ → Except String δ) (paths : List String)
    (known : ∀ path ∈ paths, path ∈ journal.databaseBackups.map (·.target)) (device : Faulty (Disk δ))
    (installing : Installing start journal [] device.state) :
    SafeAccess (Ready env input start) (Prog.forEach paths (updateDatabase update))
      (fun _ seen => Installing start journal [] seen.state) device := by
  induction paths generalizing device with
  | nil => exact safe_done _ _ _ (undoable_ready _ _ (installing_undoable draft begun installing)) installing
  | cons path rest ih =>
      obtain ⟨own, others⟩ := List.forall_mem_cons.mp known
      apply safe_then _ _ _ _ _ (update_database_safe draft begun update path own device installing)
      · exact fun _ seen _ kept => ih others seen kept
      · exact fun error seen _ kept => kept

-- select_primary_database answers with one of the paths that it is given.
def SelectsListed (env : CheckoutEnv δ) : Prop :=
  ∀ home paths path, env.selectPrimaryDatabase home paths = .ok path → path ∈ paths

theorem replace_databases_safe (selects : SelectsListed env) (paths : List String) (threads : List ThreadBundle)
    (known : ∀ path ∈ paths, path ∈ journal.databaseBackups.map (·.target)) (device : Faulty (Disk δ))
    (installing : Installing start journal [] device.state) :
    SafeAccess (Ready env input start) (replaceDatabases env paths threads)
      (fun _ seen => Installing start journal [] seen.state) device := by
  have here := undoable_ready _ _ (installing_undoable draft begun installing)
  apply safe_look _ _ _ _ here
  · intro primary faults selected
    apply safe_then _ _ _ _ _ (update_databases_safe draft begun env.deleteThreads paths known ⟨device.state, faults⟩ installing)
    · exact fun _ seen _ kept =>
        update_database_safe draft begun _ primary (known primary (selects _ _ _ selected)) seen kept
    · exact fun error seen _ kept => kept
  · exact fun error faults => installing

theorem apply_staged_safe (selects : SelectsListed env) (databasePaths catalogDatabases : List String) (snapshot : LocalSnapshot)
    (targets : journal.databaseBackups.map (·.target) = databasePaths ++ catalogDatabases.filter (· ∉ databasePaths))
    (apart : (journal.directorySwaps.map (·.slot) ++ journal.fileSwaps.map (·.slot)).Nodup) (device : Faulty (Disk δ))
    (installing : Installing start journal (journal.directorySwaps.map (·.slot) ++ journal.fileSwaps.map (·.slot)) device.state) :
    SafeAccess (Ready env input start) (applyStaged env journal databasePaths catalogDatabases snapshot)
      (fun _ seen => Installing start journal [] seen.state) device := by
  have known : ∀ path ∈ databasePaths, path ∈ journal.databaseBackups.map (·.target) :=
    fun path member => targets ▸ List.mem_append_left _ member
  have catalogued : ∀ path ∈ catalogDatabases, path ∈ journal.databaseBackups.map (·.target) := by
    intro path member
    by_cases listed : path ∈ databasePaths
    · exact known path listed
    · exact targets ▸ List.mem_append_right _ (List.mem_filter.mpr ⟨member, decide_eq_true listed⟩)
  have directories : ∀ swap ∈ journal.directorySwaps, swap ∈ journal.swaps :=
    fun swap member => List.mem_append_right _ (List.mem_reverse.mpr member)
  have files : ∀ swap ∈ journal.fileSwaps, swap.toCheckoutSwap ∈ journal.swaps :=
    fun swap member => List.mem_append_left _ (List.mem_reverse.mpr (List.mem_map_of_mem member))
  apply safe_then _ _ _ _ _ (install_swaps_safe draft begun id (pure ()) (fun device => safe_done _ _ _ rfl trivial)
    journal.directorySwaps _ directories apart device installing)
  rotate_left
  · exact fun error seen _ left => left.1
  rintro _ seen _ ⟨_, left⟩
  have remaining : Installing start journal (journal.fileSwaps.map (fun swap => swap.slot) ++ []) seen.state := by
    rw [List.append_nil]
    exact left rfl
  have distinct : List.Nodup (journal.fileSwaps.map (fun swap => swap.slot) ++ []) := by
    rw [List.append_nil]
    exact (List.nodup_append.mp apart).2.1
  apply safe_then _ _ _ _ _
    (install_swaps_safe draft begun (fun swap : CheckoutFileSwap => swap.toCheckoutSwap) createDirAll create_dir_still
    journal.fileSwaps [] files distinct seen remaining)
  · rintro _ seen _ ⟨kept, _⟩
    apply safe_then _ _ _ _ _ (replace_databases_safe draft begun selects databasePaths snapshot.threads known seen kept)
    · exact fun _ seen _ kept => update_databases_safe draft begun env.invalidateCatalog catalogDatabases catalogued seen kept
    · exact fun error seen _ kept => kept
  · exact fun error seen _ left => left.1

end Writes

section Run

-- What a checkout leaves when all its steps have gone through.
structure Installed (env : CheckoutEnv δ) (input : CheckoutInput) (start : Disk δ) (journal : CheckoutJournal)
    (disk : Disk δ) : Prop where
  draft : Draft env input start journal
  stored : disk.journals[journal.operationId]? = some journal
  status : journal.status = .localApplied
  place : InPlace env journal disk
  advanced : Advanced env journal.trackingUpdate disk.tracking

variable {journal : CheckoutJournal} {disk : Disk δ} (draft : Draft env input start journal)

omit draft in
theorem gathered_set (gathered : Gathered start journal disk) (next : CheckoutJournal)
    (own : next.operationId = journal.operationId) (backups : next.databaseBackups = journal.databaseBackups) :
    Gathered start next (disk.setJournal next) := by
  refine ⟨set_lookup next, own ▸ early_journals _ _ gathered.early, ?_⟩
  rw [own, backups]
  exact gathered.copies

omit draft in
theorem applied_ready (applied : Installed env input start journal disk) : Ready env input start disk := by
  intro stored found
  rw [← applied.draft.own, applied.stored] at found
  cases found
  exact ⟨applied.draft, applied_promise journal applied.status disk⟩

include draft

-- The tracking update is the last step, and it is taken whole or not at all.
theorem tracked_leaves (status : journal.status = .localApplied) (now : String) (disk : Disk δ) (faults : List Bool)
    (installing : Installing start journal [] disk) (place : InPlace env journal disk) :
    SafeAccess (Ready env input start) (during journal (applyTrackingUpdate env now journal))
      (Leaves env input start fun _ after => Installed env input start journal after) ⟨disk, faults⟩ := by
  have begun : journal.status.writesLive = true := by rw [status]; rfl
  have stored : disk.journals[input.operationId]? = some journal := draft.own ▸ installing.stored
  apply leaves_during
  refine safe_weaken (fun seen => ∃ tracking, seen = disk.track tracking) _ ?_ _ _ _ ?_
  · rintro _ ⟨tracking, rfl⟩
    exact applied_tracked journal draft status disk stored tracking
  refine Prog.safe_mono _ _ _ _ (fun outcome last kept left => ⟨fun _ ran => ?_, fun error failed => ?_⟩)
    (tracking_safe env now journal disk faults)
  · obtain ⟨tracking, moved⟩ := kept
    refine ⟨draft, ?_, status, ?_, left.2.1 ran⟩
    · rw [moved]
      exact installing.stored
    · rw [moved]
      exact place
  · rw [left.1 (failed ▸ nofun)]
    exact installing_undoable draft begun installing

-- The second half, from the moment on at which the journal says that entries are moved.
theorem install_safe (selects : SelectsListed env) (now : String) (snapshot : LocalSnapshot)
    (databasePaths catalogDatabases : List String) (status : journal.status = .applying)
    (expected : ∀ home, semanticThreadHashes env home snapshot.threads ∅ = .ok journal.expectedThreadHashes)
    (targets : journal.databaseBackups.map (·.target) = databasePaths ++ catalogDatabases.filter (· ∉ databasePaths))
    (apart : (journal.directorySwaps.map (·.slot) ++ journal.fileSwaps.map (·.slot)).Nodup) (device : Faulty (Disk δ))
    (installing : Installing start journal (journal.directorySwaps.map (·.slot) ++ journal.fileSwaps.map (·.slot)) device.state) :
    SafeAccess (Ready env input start) (do
      during journal (applyStaged env journal databasePaths catalogDatabases snapshot)
      let journal ← enter journal .validating
      during journal do
        validateCheckoutResult env snapshot
        validateFileSwaps env journal.fileSwaps
      let journal ← enter journal .localApplied
      during journal (applyTrackingUpdate env now journal)
      return journal) (Leaves env input start (Installed env input start)) device := by
  have begun : journal.status.writesLive = true := by rw [status]; rfl
  apply leaves_then _ _ (fun _ disk => Installing start journal [] disk)
  · apply leaves_during
    refine Prog.safe_mono _ _ _ _ (fun _ seen _ kept => ⟨fun _ _ => kept, fun _ _ => installing_undoable draft begun kept⟩) ?_
    exact apply_staged_safe draft begun selects databasePaths catalogDatabases snapshot targets apart device installing
  intro _ seen installed
  apply leaves_then _ _ _ _ _ (leaves_entered journal .validating nofun seen (installing_next .validating draft begun rfl installed))
  rintro _ ⟨_, faults⟩ ⟨rfl, rfl⟩
  have validating := installing_set .validating installed
  have drawn := draft_status journal .validating journal.error draft
  apply leaves_then _ _ (fun _ disk => disk = seen.state.setJournal { journal with status := .validating } ∧
    InPlace env { journal with status := .validating } disk)
  · apply leaves_during
    have undoable := installing_undoable drawn rfl validating
    refine Prog.safe_mono _ _ _ _ (fun outcome last _ left => ?_) (safe_reads _ _ ⟨_, faults⟩ (undoable_ready _ _ undoable)
      (result_comes env (seen.state.setJournal { journal with status := .validating }) snapshot _ faults expected))
    obtain ⟨same, comes⟩ := left
    refine ⟨fun _ ran => ?_, fun _ _ => same ▸ undoable⟩
    rw [ran] at comes
    exact ⟨same, same ▸ comes.1⟩
  rintro _ ⟨_, faults⟩ ⟨rfl, place⟩
  apply leaves_then _ _ _ _ _
    (leaves_entered _ .localApplied nofun ⟨_, faults⟩ (installing_next .localApplied drawn rfl rfl validating))
  rintro _ ⟨_, faults⟩ ⟨rfl, rfl⟩
  have settled := draft_status _ .localApplied journal.error drawn
  have entered := installing_set .localApplied validating
  apply leaves_then _ _ _ _ _ (tracked_leaves settled rfl now _ faults entered place)
  exact fun _ last applied => safe_done _ _ _ (applied_ready applied) applied

-- The whole of what a checkout does once its journal is on the disk.
theorem run_checkout_safe (selects : SelectsListed env) (now : String) (snapshot : LocalSnapshot)
    (databasePaths catalogDatabases : List String) (status : journal.status = .preparing) (none_ : journal.databaseBackups = [])
    (expected : ∀ home, semanticThreadHashes env home snapshot.threads ∅ = .ok journal.expectedThreadHashes)
    (apart : (journal.directorySwaps.map (·.slot) ++ journal.fileSwaps.map (·.slot)).Nodup) (device : Faulty (Disk δ))
    (gathered : Gathered start journal device.state) :
    SafeAccess (Ready env input start) (runCheckout env now snapshot databasePaths catalogDatabases journal)
      (Leaves env input start (Installed env input start)) device := by
  have before : journal.status.writesLive = false := by rw [status]; rfl
  have unfinished : journal.status ≠ .completed := by rw [status]; nofun
  apply leaves_then _ _ (fun _ disk => Gathered start journal disk)
  · refine leaves_kept journal (Gathered start journal) (fun disk kept => gathered_undoable draft before unfinished kept) _ ?_
      device gathered
    exact Prog.acts_bind _ _ (stage_moves journal snapshot.threads) fun _ =>
      Prog.acts_bind _ _ (keeps_fallible _) fun _ => keeps_fallible _
  intro _ seen gathered
  have below : ∀ backup ∈ journal.databaseBackups, backup.backup < 0 := none_ ▸ List.forall_mem_nil _
  apply leaves_then _ _ _ _ _ (back_up_safe _ journal 0 draft before unfinished below seen gathered)
  rintro _ seen ⟨gathered, more, rfl, targets⟩
  have copied := draft_adding more draft
  have backed := draft_status _ .backedUp journal.error copied
  apply leaves_then _ _ _ _ _ (leaves_entered _ .backedUp nofun seen (gathered_next copied before unfinished gathered _ backed rfl))
  rintro _ ⟨_, faults⟩ ⟨rfl, rfl⟩
  have kept := gathered_set gathered { journal.adding more with status := .backedUp } rfl rfl
  apply leaves_then _ _ _ _ _ (leaves_kept _ (Gathered start { journal.adding more with status := .backedUp })
    (fun disk kept => gathered_undoable backed rfl nofun kept) _ (keeps_fallible _) ⟨_, faults⟩ kept)
  intro _ seen kept
  apply leaves_then _ _ _ _ _ (leaves_entered _ .applying nofun seen (gathered_applying backed rfl nofun kept))
  rintro _ ⟨_, faults⟩ ⟨rfl, rfl⟩
  have named : (journal.adding more).databaseBackups.map (·.target) =
      databasePaths ++ catalogDatabases.filter (· ∉ databasePaths) := by
    rw [CheckoutJournal.adding, none_, List.nil_append, targets]
  exact install_safe (draft_status _ .applying journal.error backed) selects now snapshot databasePaths catalogDatabases rfl expected
    named apart ⟨_, faults⟩ (gathered_installing _ kept)

end Run

end SessionSync.Checkout
