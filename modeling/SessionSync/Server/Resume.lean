import SessionSync.Server.GcProgress

set_option autoImplicit false

namespace SessionSync.Server

open SessionSync.Core Checked Storage

section Actions

variable (env : ServerEnv) (accepted : Bytes → Prop)

theorem tick_seq {ε α β : Type} (prog : Prog ServerState ε α) (next : α → Prog ServerState ε β) (post : β → ServerState → Prop)
    (state : ServerState) (first : TickWp prog (fun value seen => TickWp (next value) post seen) state) :
    TickWp (prog >>= next) post state := Prog.sure_seq tick_refl prog next post state first

-- A transaction that cannot fail.
theorem tick_transaction {α : Type} (change : Nanos → Database → Database) (look : Nanos → Database → α)
    (post : α → ServerState → Prop) (state : ServerState)
    (holds : ∀ seen, ClockTick state seen → ∀ last, ClockTick { seen with db := change seen.clock seen.db } last →
      post (look seen.clock seen.db) last) :
    TickWp (transaction fun now db => .ok (change now db, look now db)) post state := by
  intro seen moved _
  exact ⟨rfl, Prog.sure_pure _ post _ fun last later _ => holds seen moved last later⟩

theorem tick_query {ε α : Type} (look : ServerState → α) (post : α → ServerState → Prop) (state : ServerState)
    (holds : ∀ seen, ClockTick state seen → ∀ last, ClockTick seen last → post (look seen) last) :
    TickWp (Prog.query look : Prog ServerState ε α) post state := by
  apply Prog.sure_act
  exact fun seen moved _ => ⟨rfl, fun last later _ => holds seen moved last later⟩

theorem tick_check {ε α : Type} (result : Except ε α) (value : α) (passes : result = .ok value) (post : α → ServerState → Prop)
    (state : ServerState) (holds : ∀ seen, ClockTick state seen → post value seen) : TickWp (Prog.ofExcept result) post state :=
  Prog.sure_check result value passes post state fun seen moved _ => holds seen moved

theorem tick_clock {ε α : Type} (prog : Prog ServerState ε α) (post : α → ServerState → Prop) (state : ServerState)
    (holds : TickWp prog post state) : (prog.exec state).2.clock = state.clock := by
  refine Prog.wp_exec_guar ?_ ?_ ?_ ?_ prog _ state holds
  · exact tick_refl
  · exact fun _ => trivial
  · exact fun _ => rfl
  · exact fun _ _ _ one two => two.trans one

theorem destination_ok (entry : GcQueueEntry) (valid : validSha256 entry.object.sha256 = true) : gcDestination entry = .ok () := by
  have starts : "sha256:".toList.isPrefixOf entry.object.sha256.toList = true := by
    unfold validSha256 at valid
    rw [List.splitAt_eq] at valid
    simp only [Bool.and_eq_true, decide_eq_true_eq] at valid
    rw [List.isPrefixOf_iff_prefix, ← valid.1.1]
    exact List.take_prefix 7 _
  rw [gcDestination, ensure, if_pos starts]

theorem quarantine_clock (operationId : Uuid) (key : ObjectKey) (state : ServerState) :
    (quarantineFile operationId key state).2.clock = state.clock := by
  unfold quarantineFile
  cases state.files[key]? <;> rfl

-- The file goes to the entry's place, if it is still there.
theorem quarantine_tick (operationId : Uuid) (key : ObjectKey) (valid : validSha256 key.2 = true) (state : ServerState) :
    TickWp (quarantine operationId key) (fun _ seen => ClockTick (quarantineFile operationId key state).2 seen) state := by
  apply tick_seq
  refine tick_check _ () (by rw [objectPath, ensure, if_pos valid]) _ _ fun one first => ?_
  apply tick_seq
  refine tick_query _ _ _ fun two second three third => ?_
  have moved := tick_trans _ _ _ (tick_trans _ _ _ first second) third
  have same : two.files = state.files := by
    obtain ⟨_, _, rfl⟩ := first
    obtain ⟨_, _, rfl⟩ := second
    rfl
  by_cases there : two.files.contains key = true
  · rw [if_pos there]
    apply Prog.sure_act
    intro four fourth _
    refine ⟨quarantine_clock operationId key four, fun last later _ => ?_⟩
    obtain ⟨time, order, rfl⟩ := tick_trans _ _ _ moved fourth
    refine tick_trans _ _ _ ⟨time, ?_, ?_⟩ later
    · unfold quarantineFile
      cases state.files[key]? <;> exact order
    · unfold quarantineFile
      cases state.files[key]? <;> rfl
  · rw [if_neg there]
    refine tick_query _ _ _ fun four fourth last later => ?_
    have absent : state.files[key]? = none := by
      rw [← same]
      exact Std.ExtTreeMap.getElem?_eq_none fun present => there (Std.ExtTreeMap.contains_iff_mem.mpr present)
    have idle : (quarantineFile operationId key state).2 = state := by
      rw [quarantineFile, absent]
    rw [idle]
    exact tick_trans _ _ _ moved (tick_trans _ _ _ fourth later)

-- No two of the bodies share a digest and differ in length.
def ClashFree : Prop :=
  ∀ one other, accepted one → accepted other → digestBytes env.lib one = digestBytes env.lib other → one.length = other.length

variable {env accepted}

theorem tick_named (seen after : ServerState) (moved : ClockTick seen after) (named : Named env accepted seen) :
    Named env accepted after := by
  obtain ⟨_, _, rfl⟩ := moved
  exact ⟨named.files, named.gcFiles, named.rows, named.queue⟩

-- A purge finds the length that its entry was queued with.
theorem queued_length (clear : ClashFree env accepted) (seen : ServerState) (named : Named env accepted seen) (entry : GcQueueEntry)
    (sized : BodyLength env accepted entry.object.sha256 entry.object.byteLength) (bytes : Bytes)
    (stored : seen.gcFiles[entry.place]? = some bytes) : fileLength bytes = entry.object.byteLength := by
  obtain ⟨known, digest⟩ := named.gcFiles entry.place bytes stored
  obtain ⟨body, accepted_, named_, length⟩ := sized
  rw [← length, fileLength, fileLength, clear bytes body known accepted_ (digest.trans named_.symm)]

theorem body_valid (sha256 : String) (byteLength : UInt64) (sized : BodyLength env accepted sha256 byteLength) :
    validSha256 sha256 = true := by
  obtain ⟨body, _, named, _⟩ := sized
  rw [← named]
  exact digest_bytes_valid env.lib body

theorem purged_named (entry : GcQueueEntry) (state after : ServerState) (purged : Purged entry state after)
    (named : Named env accepted state) : Named env accepted after := by
  have marked := (mark_named env accepted entry.id state).1 named
  refine ⟨fun key bytes stored => named.files key bytes (purged.files ▸ stored), fun place bytes stored => ?_,
    fun key row stored => ?_, fun id row stored => ?_⟩
  · rw [purged.gcFiles] at stored
    by_cases own : place = entry.place
    · rw [if_pos own] at stored
      cases stored
    · rw [if_neg own] at stored
      exact named.gcFiles place bytes stored
  · rw [purged.db] at stored
    exact marked.rows key row stored
  · rw [purged.db] at stored
    exact marked.queue id row stored

theorem marks_purged (entry : GcQueueEntry) (state : ServerState) (db : Database) (gcFiles : Std.ExtTreeMap (Uuid × ObjectKey) Bytes)
    (time : Nanos) (order : state.clock ≤ time) (same : db = state.db)
    (erased : ∀ (place : Uuid × ObjectKey), gcFiles[place]? = if place = entry.place then none else state.gcFiles[place]?)
    (last : ServerState) (moved : ClockTick ⟨Server.markGcEntryPurged entry.id db, state.files, gcFiles, time⟩ last) :
    Purged entry state last := by
  obtain ⟨later, after, rfl⟩ := moved
  subst same
  exact ⟨le_trans order after, rfl, rfl, erased⟩

-- The purge of a file with the length of its entry goes through.
theorem purge_tick (clear : ClashFree env accepted) (entry : GcQueueEntry)
    (sized : BodyLength env accepted entry.object.sha256 entry.object.byteLength) (state : ServerState)
    (named : Named env accepted state) :
    TickWp (purgeGcEntry entry) (fun _ seen => Purged entry state seen) state := by
  apply tick_seq
  refine tick_check _ () (destination_ok entry (body_valid _ _ sized)) _ _ fun one first => ?_
  obtain ⟨oneTime, oneOrder, rfl⟩ := first
  apply tick_seq
  apply Prog.sure_rename_error
  apply tick_seq
  refine tick_query _ _ _ fun two second three third => ?_
  obtain ⟨threeTime, threeOrder, rfl⟩ := tick_trans _ _ _ second third
  obtain ⟨twoTime, _, rfl⟩ := second
  have marks := fun (gcFiles : Std.ExtTreeMap (Uuid × ObjectKey) Bytes) (time : Nanos) (order : state.clock ≤ time)
      (erased : ∀ (place : Uuid × ObjectKey), gcFiles[place]? = if place = entry.place then none else state.gcFiles[place]?)
      (now : ServerState) (moved : ClockTick ⟨state.db, state.files, gcFiles, time⟩ now) =>
    show TickWp (transaction fun _ db => .ok (Server.markGcEntryPurged entry.id db, ()))
      (fun _ seen => Purged entry state seen) now from by
      obtain ⟨nowTime, nowOrder, rfl⟩ := moved
      refine tick_transaction (fun _ db => Server.markGcEntryPurged entry.id db) (fun _ _ => ()) _ _ fun seen ticked last later => ?_
      obtain ⟨seenTime, seenOrder, rfl⟩ := ticked
      exact marks_purged entry state state.db gcFiles seenTime (le_trans order (le_trans nowOrder seenOrder)) rfl erased last later
  cases stored : state.gcFiles[(entry.operationId, entry.object.key)]? with
  | none =>
      refine Prog.sure_pure _ _ _ fun now moved _ => ?_
      refine marks state.gcFiles threeTime (le_trans oneOrder threeOrder) (fun place => ?_) now moved
      by_cases own : place = entry.place
      · rw [if_pos own, own]
        exact stored
      · rw [if_neg own]
  | some bytes =>
      apply tick_seq
      have fits := queued_length clear state named entry sized bytes stored
      refine tick_check _ () (by rw [ensure, if_pos fits]) _ _ fun four fourth => ?_
      obtain ⟨fourTime, fourOrder, rfl⟩ := fourth
      apply tick_seq
      apply Prog.sure_act
      intro five fifth _
      obtain ⟨fiveTime, fiveOrder, rfl⟩ := fifth
      refine ⟨rfl, fun six sixth _ => ?_⟩
      refine Prog.sure_pure _ _ _ fun now moved _ => ?_
      have order := le_trans oneOrder (le_trans threeOrder (le_trans fourOrder fiveOrder))
      refine marks (state.gcFiles.erase (entry.operationId, entry.object.key)) fiveTime order (fun place => ?_) now
        (tick_trans _ _ _ sixth moved)
      exact Keyed.lookup_erase _ _ _

theorem taken_of_moves (entry : GcQueueEntry) (state : ServerState) (time : Nanos) (last : ServerState)
    (order : (quarantineFile entry.operationId entry.object.key state).2.clock ≤ time)
    (moved : ClockTick ⟨Server.completeGcEntry entry time (quarantineFile entry.operationId entry.object.key state).2.db,
      (quarantineFile entry.operationId entry.object.key state).2.files,
      (quarantineFile entry.operationId entry.object.key state).2.gcFiles, time⟩ last) : Taken entry state last := by
  obtain ⟨later, after, rfl⟩ := moved
  unfold quarantineFile at order ⊢
  cases stored : state.files[entry.object.key]? with
  | none =>
      rw [stored] at order
      refine ⟨le_trans order after, ⟨time, rfl⟩, fun key => ?_, fun _ _ => rfl⟩
      by_cases own : key = entry.object.key
      · rw [if_pos own, own]
        exact stored
      · rw [if_neg own]
  | some bytes =>
      rw [stored] at order
      refine ⟨le_trans order after, ⟨time, rfl⟩, fun key => Keyed.lookup_erase _ _ _, fun place other => ?_⟩
      exact (Keyed.lookup_insert _ _ _ _).trans (if_neg other)

-- The object of an entry is moved away and its row goes.
theorem take_tick {β : Type} (entry : GcQueueEntry) (valid : validSha256 entry.object.sha256 = true) (next : Handler β)
    (post : β → ServerState → Prop) (state : ServerState) (named : Named env accepted state)
    (holds : ∀ seen, Taken entry state seen → Named env accepted seen → TickWp next post seen) :
    TickWp (do
      let _ ← (quarantine entry.operationId entry.object.key).mapError HttpError.objectStore
      transaction fun now db => .ok (Server.completeGcEntry entry now db, ())
      next) post state := by
  apply tick_seq
  apply Prog.sure_rename_error
  refine Prog.sure_mono _ _ _ _ (fun _ seen moved => ?_) (quarantine_tick entry.operationId entry.object.key valid state)
  obtain ⟨seenTime, seenOrder, rfl⟩ := moved
  have quarantined := take_named env accepted entry.operationId entry.object.key state named
  apply tick_seq
  refine tick_transaction (fun now db => Server.completeGcEntry entry now db) (fun _ _ => ()) _ _ fun two second last later => ?_
  obtain ⟨twoTime, twoOrder, rfl⟩ := second
  refine holds last (taken_of_moves entry state twoTime last (le_trans seenOrder twoOrder) later) ?_
  have ticked : Named env accepted ⟨_, _, _, twoTime⟩ := tick_named _ _ ⟨twoTime, le_trans seenOrder twoOrder, rfl⟩ quarantined
  exact tick_named _ _ later ((complete_named env accepted entry _).1 ticked)

section Loop

variable (clear : ClashFree env accepted) (start : ServerState) (distinct : DistinctPlaces start.db)
    (named : Named env accepted start)

include clear distinct named

theorem process_progress (entries processed : List GcQueueEntry)
    (all : processed ++ entries = pendingGcEntries start.db) (count : Nat) (bytes : UInt64) (state : ServerState)
    (progress : Progress env accepted start processed [] state) :
    TickWp (processGcEntries entries count bytes)
      (fun _ seen => Progress env accepted start (pendingGcEntries start.db) [] seen) state := by
  induction entries generalizing processed count bytes state with
  | nil =>
      rw [← all, List.append_nil]
      exact Prog.sure_pure _ _ _ fun seen moved _ => progress_tick state seen moved progress
  | cons entry rest ih =>
      obtain ⟨id, row, stored, pending, rfl⟩ := (mem_pending start.db entry).mp (all ▸ List.mem_append_right _ List.mem_cons_self)
      have once : (processed ++ gcEntry id row :: rest).Nodup := all ▸ listed_once start.db _ _
      have unprocessed : gcEntry id row ∉ processed := fun inside =>
        (List.nodup_append.mp once).2.2 _ inside _ List.mem_cons_self rfl
      have further : (processed ++ [gcEntry id row]) ++ rest = pendingGcEntries start.db := by
        rw [List.append_assoc]
        exact all
      have sized := named.queue id row stored
      have valid := body_valid _ _ sized
      apply tick_seq
      refine tick_transaction (fun _ db => db) (fun now db => gcObjectIsReachable db now (gcEntry id row).object) _ _ fun one first
        two second => ?_
      have oneProgress := progress_tick state one first progress
      by_cases reached : gcObjectIsReachable one.db one.clock (gcEntry id row).object = true
      · rw [if_pos reached]
        have inside := (oneProgress.reach one.clock (le_refl _) _).mp (Std.ExtTreeSet.contains_iff_mem.mp reached)
        have kept := reachable_earlier start.db _ _ oneProgress.clock _ inside
        have twoProgress := progress_tick one two second oneProgress
        apply tick_seq
        refine tick_transaction (fun _ db => Server.cancelGcEntry id db) (fun _ _ => ()) _ _ fun three third four fourth => ?_
        have threeProgress := progress_tick two three third twoProgress
        have cancelled := (cancel_named env accepted id three).1 threeProgress.named
        have next := progress_cancelled id row stored pending unprocessed three threeProgress kept cancelled
        exact ih (processed ++ [gcEntry id row]) further count bytes four (progress_tick _ four fourth next)
      · rw [if_neg reached]
        have outside : row.object.key ∉ reachableObjects one.db one.clock :=
          fun inside => reached (Std.ExtTreeSet.contains_iff_mem.mpr inside)
        have hidden : ∀ seen, ClockTick one seen → row.object.key ∉ reachableObjects seen.db seen.clock := by
          intro seen moved inside
          obtain ⟨later, order, rfl⟩ := moved
          exact outside (reachable_earlier one.db _ _ order _ inside)
        apply tick_seq
        refine tick_check _ () (destination_ok (gcEntry id row) valid) _ _ fun three third => ?_
        have ticks := tick_trans _ _ _ second third
        have threeProgress := progress_tick one three ticks oneProgress
        apply take_tick (gcEntry id row) valid _ _ three threeProgress.named
        intro four taken fourNamed
        by_cases deletes : (gcEntry id row).deleteAfterQuarantine = true
        · rw [if_pos deletes]
          apply tick_seq
          refine Prog.sure_mono _ _ _ _ (fun _ five purged => ?_) (purge_tick clear (gcEntry id row) sized four fourNamed)
          have next :=
            progress_deleted distinct id row stored pending unprocessed three four five threeProgress (hidden three ticks) deletes
            fourNamed (purged_named _ _ _ purged fourNamed) taken purged
          exact ih (processed ++ [gcEntry id row]) further _ _ five next
        · rw [if_neg deletes]
          have next := progress_taken distinct id row stored pending unprocessed three four threeProgress (hidden three ticks)
            (Bool.eq_false_iff.mpr deletes) fourNamed taken
          exact ih (processed ++ [gcEntry id row]) further _ _ four next

theorem clear_progress (entries cleared : List GcQueueEntry)
    (each : ∀ entry ∈ entries, ∃ (id : Uuid) (row : GcQueueRow), start.db.gcQueue[id]? = some row ∧ row.state = .quarantined ∧
      row.deleteAfterQuarantine = true ∧ gcEntry id row = entry) (once : (cleared ++ entries).Nodup) (state : ServerState)
    (progress : Progress env accepted start (pendingGcEntries start.db) cleared state) :
    TickWp (purgeGcEntries entries)
      (fun _ seen => Progress env accepted start (pendingGcEntries start.db) (cleared ++ entries) seen) state := by
  induction entries generalizing cleared state with
  | nil =>
      rw [List.append_nil]
      exact Prog.sure_pure _ _ _ fun seen moved _ => progress_tick state seen moved progress
  | cons entry rest ih =>
      obtain ⟨id, row, stored, waits, deletes, rfl⟩ := each entry List.mem_cons_self
      have unprocessed : gcEntry id row ∉ pendingGcEntries start.db := by
        intro inside
        obtain ⟨other, next, _, pending, same⟩ := (mem_pending start.db _).mp inside
        rw [← show next.state = row.state from congrArg GcQueueEntry.state same, pending] at waits
        cases waits
      have uncleared : gcEntry id row ∉ cleared := fun inside => (List.nodup_append.mp once).2.2 _ inside _ List.mem_cons_self rfl
      apply tick_seq
      refine Prog.sure_mono _ _ _ _ (fun _ seen purged => ?_)
        (purge_tick clear (gcEntry id row) (named.queue id row stored) state progress.named)
      have next := progress_cleared distinct id row stored waits deletes unprocessed uncleared state seen progress
        (purged_named _ _ _ purged progress.named) purged
      have split : cleared ++ gcEntry id row :: rest = (cleared ++ [gcEntry id row]) ++ rest := by rw [List.append_assoc]; rfl
      rw [split] at once ⊢
      exact ih _ (fun other member => each other (List.mem_cons_of_mem _ member)) once seen next

omit clear distinct in
theorem starts_progress : Progress env accepted start [] [] start := by
  refine ⟨⟨named, le_refl _, fun _ _ _ => Iff.rfl, fun key => .inl ⟨rfl, rfl⟩, fun _ _ edge => edge, fun _ _ edge _ => edge⟩,
    fun id row stored => ?_, fun id row stored => ⟨row, stored⟩⟩
  rw [row_now_left _ _ _ _ _ _ List.not_mem_nil List.not_mem_nil]
  exact ⟨stored, rfl⟩

omit clear distinct named in
-- What waits for its purge was waiting for it from the start.
theorem quarantined_rows (seen : ServerState) (progress : Progress env accepted start (pendingGcEntries start.db) [] seen)
    (entry : GcQueueEntry) : entry ∈ quarantinedGcEntriesForPurge seen.db ↔ entry ∈ quarantinedGcEntriesForPurge start.db := by
  rw [mem_quarantined, mem_quarantined]
  have kept : ∀ (id : Uuid) (row : GcQueueRow), start.db.gcQueue[id]? = some row → row.state ≠ .pending →
      seen.db.gcQueue[id]? = some row := by
    intro id row stored done
    refine (fresh_row seen progress id row stored (fun inside => ?_) List.not_mem_nil).1
    obtain ⟨other, next, _, pending, same⟩ := (mem_pending start.db _).mp inside
    exact done ((congrArg GcQueueEntry.state same).symm.trans pending)
  constructor
  · intro ⟨id, row, stored, waits, deletes, same⟩
    obtain ⟨before, known⟩ := progress.known id row stored
    by_cases pending : before.state = .pending
    · have now := progress.rows id before known
      obtain ⟨state, at_, found, finished⟩ := now.1 ((mem_pending start.db _).mpr ⟨id, before, known, pending, rfl⟩)
      rw [stored] at found
      cases found
      cases waits
      cases finished with
      | quarantined plain _ _ =>
          rw [show (gcEntry id before).deleteAfterQuarantine = true from deletes] at plain
          cases plain
    · have found := kept id before known pending
      rw [stored] at found
      cases found
      exact ⟨id, row, known, waits, deletes, same⟩
  · intro ⟨id, row, stored, waits, deletes, same⟩
    exact ⟨id, row, kept id row stored (fun pending => by rw [pending] at waits; cases waits), waits, deletes, same⟩

theorem resume_progress : TickWp resumePendingGc (fun _ seen => ∃ cleared,
    (∀ entry, entry ∈ cleared ↔ entry ∈ quarantinedGcEntriesForPurge start.db) ∧
      Progress env accepted start (pendingGcEntries start.db) cleared seen) start := by
  apply tick_seq
  refine tick_transaction (fun _ db => db) (fun _ db => pendingGcEntries db) _ _ fun one first two second => ?_
  obtain ⟨oneTime, oneOrder, rfl⟩ := first
  have begins := progress_tick _ two (tick_trans start _ two ⟨oneTime, oneOrder, rfl⟩ second) (starts_progress start named)
  apply tick_seq
  refine Prog.sure_mono _ _ _ _ (fun _ mid progress => ?_)
    (process_progress clear start distinct named (pendingGcEntries start.db) [] rfl 0 0 two begins)
  apply tick_seq
  refine tick_transaction (fun _ db => db) (fun _ db => quarantinedGcEntriesForPurge db) _ _ fun three third four fourth => ?_
  obtain ⟨threeTime, threeOrder, rfl⟩ := third
  have threeProgress := progress_tick mid { mid with clock := threeTime } ⟨threeTime, threeOrder, rfl⟩ progress
  refine Prog.sure_mono _ _ _ _ (fun _ last finished => ⟨_, quarantined_rows start mid progress, finished⟩)
    (clear_progress clear start distinct named (quarantinedGcEntriesForPurge mid.db) [] (fun entry member => ?_)
      (listed_once _ _ _) four
      (progress_tick _ four fourth threeProgress))
  exact (mem_quarantined start.db entry).mp ((quarantined_rows start mid progress entry).mp member)

end Loop

end Actions

end SessionSync.Server
