import SessionSync.Server.ServeExclusive

set_option autoImplicit false

namespace SessionSync.Server

open SessionSync.Core Checked Storage

variable (env : ServerEnv)

theorem exclusive_check {ε α : Type} (result : Except ε α) (post : α → ServerState → Prop) (state : ServerState)
    (holds : ∀ value seen, ExclusiveRely state seen → post value seen) : ExclusiveWp env (Prog.ofExcept result) post state := by
  apply Prog.wp_check
  intro value _ seen moved _
  exact holds value seen moved

theorem exclusive_done {ε α : Type} (value : α) (state : ServerState) :
    ExclusiveWp env (pure value : Prog ServerState ε α) (fun _ _ => True) state := by
  apply Prog.wp_pure
  exact fun _ _ _ => trivial

theorem exclusive_query {ε α : Type} (look : ServerState → α) (post : α → ServerState → Prop) (state : ServerState)
    (holds : ∀ value seen, ExclusiveRely state seen → post value seen) :
    ExclusiveWp env (Prog.query look : Prog ServerState ε α) post state := by
  apply Prog.wp_act
  intro seen moved inv
  exact ⟨exclusive_idle env seen inv, fun last later _ => holds _ last (exclusive_trans _ _ _ moved later)⟩

-- A transaction on the queue alone.
theorem queue_wp (change : Nanos → Database → Database)
    (quiet : ∀ now db, ∃ queue, change now db = { db with gcQueue := queue }) (post : Unit → ServerState → Prop) (state : ServerState)
    (holds : ∀ seen, post () seen) : ExclusiveWp env (transaction fun now db => .ok (change now db, ())) post state := by
  apply wp_transaction _ post state (exclusive_idle env)
  intro seen db value _ inv run
  cases run
  obtain ⟨queue, same⟩ := quiet seen.clock seen.db
  refine ⟨?_, fun last _ _ => holds last⟩
  rw [same]
  exact quiet_db_guar env seen _ rfl rfl rfl rfl rfl inv

theorem quarantine_wp (operationId : Uuid) (key : ObjectKey) (post : Bool → ServerState → Prop) (state : ServerState)
    (unreached : Unreached env key state) (holds : ∀ value last, Unreached env key last → post value last) :
    ExclusiveWp env (quarantine operationId key) post state := by
  apply exclusive_seq
  apply exclusive_check
  intro _ seen moved
  apply exclusive_seq
  apply exclusive_query
  intro present mid more
  have still := unreached_moved env key _ _ (exclusive_trans _ _ _ moved more) unreached
  split
  · apply Prog.wp_act
    intro now further inv
    have here := unreached_moved env key _ _ further still
    unfold quarantineFile
    cases stored : now.files[key]? with
    | none => exact ⟨exclusive_idle env now inv, fun last later _ => holds _ last (unreached_moved env key _ _ later here)⟩
    | some bytes =>
        refine ⟨erase_guar env key now here _ inv, fun last later _ => holds _ last ?_⟩
        exact unreached_moved env key _ _ later (erase_unreached env key now here _)
  · apply exclusive_query
    intro value last later
    exact holds value last (unreached_moved env key _ _ later still)

theorem purge_quarantined_wp (operationId : Uuid) (key : ObjectKey) (expectedLength : UInt64) (state : ServerState) :
    ExclusiveWp env (purgeQuarantined operationId key expectedLength) (fun _ _ => True) state := by
  apply exclusive_seq
  apply exclusive_query
  intro metadata seen _
  cases metadata with
  | none => exact exclusive_done env false seen
  | some bytes =>
      apply exclusive_seq
      apply exclusive_check
      intro _ mid _
      apply exclusive_seq
      apply Prog.wp_act
      intro now _ inv
      refine ⟨quiet_guar env now _ ⟨rfl, rfl, rfl, rfl, rfl, le_refl _⟩ inv.history inv, fun last _ _ => ?_⟩
      exact exclusive_done env true last

theorem purge_gc_entry_wp (entry : GcQueueEntry) (post : Unit → ServerState → Prop) (state : ServerState)
    (holds : ∀ seen, post () seen) : ExclusiveWp env (purgeGcEntry entry) post state := by
  apply exclusive_seq
  apply exclusive_check
  intro _ seen _
  apply exclusive_seq
  apply Prog.wp_rename_error
  refine Prog.wp_mono _ _ _ _ (fun outcome mid _ value _ => ?_) (purge_quarantined_wp env _ _ _ seen)
  exact queue_wp env (fun _ => Server.markGcEntryPurged entry.id) (fun _ _ => ⟨_, rfl⟩) post mid holds

-- An entry whose object is still reached is cancelled. Otherwise the object goes,
-- and what reached it at the check is all that could reach it later.
theorem process_gc_wp (entries : List GcQueueEntry) (count : Nat) (bytes : UInt64) (post : Nat × UInt64 → ServerState → Prop)
    (state : ServerState) (holds : ∀ value seen, post value seen) :
    ExclusiveWp env (processGcEntries entries count bytes) post state := by
  induction entries generalizing count bytes state with
  | nil =>
      apply Prog.wp_pure
      exact fun seen _ _ => holds _ seen
  | cons entry rest ih =>
      apply exclusive_seq
      apply wp_transaction _ _ _ (exclusive_idle env)
      intro seen db reachable _ inv run
      cases run
      refine ⟨exclusive_idle env seen inv, fun last later _ => ?_⟩
      split
      · apply exclusive_seq
        apply queue_wp env (fun _ => Server.cancelGcEntry entry.id) (fun _ _ => ⟨_, rfl⟩)
        exact fun now => ih count bytes now
      · next answer =>
          have unreached := unreached_of_query env entry.object seen inv (Bool.eq_false_iff.mpr answer)
          apply exclusive_seq
          apply exclusive_check
          intro _ mid more
          have still := unreached_moved env entry.object.key seen mid (exclusive_trans _ _ _ later more) unreached
          apply exclusive_seq
          apply Prog.wp_rename_error
          apply quarantine_wp env _ _ _ mid still
          intro moved_ now here
          apply exclusive_seq
          apply wp_transaction _ _ _ (exclusive_idle env)
          intro at_ db _ further atInv completed
          cases completed
          have gone := unreached_moved env entry.object.key now at_ further here
          refine ⟨complete_guar env entry.object.key at_ gone entry rfl at_.clock atInv, fun after _ _ => ?_⟩
          split
          · apply exclusive_seq
            apply purge_gc_entry_wp
            exact fun final => ih _ _ final
          · exact ih _ _ after

theorem purge_gc_entries_wp (entries : List GcQueueEntry) (state : ServerState) :
    ExclusiveWp env (purgeGcEntries entries) (fun _ _ => True) state := by
  induction entries generalizing state with
  | nil => exact exclusive_done env () state
  | cons entry rest ih =>
      apply exclusive_seq
      apply purge_gc_entry_wp
      exact ih

theorem resume_wp (state : ServerState) : ExclusiveWp env resumePendingGc (fun _ _ => True) state := by
  apply exclusive_seq
  apply wp_transaction _ _ _ (exclusive_idle env)
  intro seen db pending _ inv run
  cases run
  refine ⟨exclusive_idle env seen inv, fun last _ _ => ?_⟩
  apply exclusive_seq
  apply process_gc_wp
  intro _ mid
  apply exclusive_seq
  apply wp_transaction _ _ _ (exclusive_idle env)
  intro now db quarantined _ nowInv run
  cases run
  exact ⟨exclusive_idle env now nowInv, fun after _ _ => purge_gc_entries_wp env _ after⟩

theorem quarantine_server_gc_wp (planFingerprint : String) (operationId : Uuid) (ids : Nat → Uuid) (state : ServerState) :
    ExclusiveWp env (Server.quarantineServerGc env planFingerprint operationId ids) (fun _ _ => True) state := by
  apply exclusive_seq
  apply exclusive_check
  intro _ seen _
  apply exclusive_seq
  apply wp_transaction _ _ _ (exclusive_idle env)
  intro now db ⟨operation, entries⟩ _ inv run
  have same := enqueue_gc_quiet _ _ _ _ _ _ _ _ _ run
  refine ⟨?_, fun last _ _ => ?_⟩
  · rw [same]
    exact quiet_db_guar env now _ rfl rfl rfl rfl rfl inv
  · apply exclusive_seq
    apply process_gc_wp
    exact fun _ final => exclusive_done env _ final

theorem purge_history_trash_wp (namespaceId : Uuid) (operationIds : List Uuid) (purgeAll : Bool) (operationId : Uuid)
    (ids : Nat → Uuid) (state : ServerState) :
    ExclusiveWp env (Server.purgeHistoryTrash namespaceId operationIds purgeAll operationId ids) (fun _ _ => True) state := by
  apply exclusive_seq
  apply exclusive_check
  intro _ seen _
  apply exclusive_seq
  apply wp_transaction _ _ _ (exclusive_idle env)
  intro planned db plan _ plannedInv read
  simp only [bind_ok, pure_ok] at read
  obtain ⟨_, _, done⟩ := read
  cases done
  refine ⟨exclusive_idle env planned plannedInv, fun last _ _ => ?_⟩
  apply exclusive_seq
  apply wp_transaction _ _ _ (exclusive_idle env)
  intro now db ⟨committed, entries⟩ _ inv run
  refine ⟨purge_guar env namespaceId plan committed operationId ids now db entries run inv, fun after _ _ => ?_⟩
  apply exclusive_seq
  apply process_gc_wp
  exact fun _ final => exclusive_done env _ final

theorem truncate_wp (namespaceId : Uuid) (expectedHead : Option String) (expectedEpoch : UInt64) (newHead : Option String)
    (operationId : Uuid) (state : ServerState) :
    ExclusiveWp env (Api.truncateHistory namespaceId expectedHead expectedEpoch newHead operationId) (fun _ _ => True) state := by
  apply exclusive_seq
  apply exclusive_check
  intro _ seen _
  apply exclusive_seq
  apply exclusive_check
  intro _ mid _
  apply wp_transaction _ _ _ (exclusive_idle env)
  intro now db operation _ inv run
  exact ⟨truncate_guar env _ _ _ _ _ now db operation run inv, fun _ _ _ => trivial⟩

theorem restore_wp (namespaceId operationId : Uuid) (expectedHead : Option String) (expectedEpoch : UInt64) (state : ServerState) :
    ExclusiveWp env (Api.restoreHistoryTrash namespaceId operationId expectedHead expectedEpoch) (fun _ _ => True) state := by
  apply exclusive_seq
  apply exclusive_check
  intro _ seen _
  apply wp_transaction _ _ _ (exclusive_idle env)
  intro now db operation _ inv run
  exact ⟨restore_guar env _ _ _ _ now db operation run inv, fun _ _ _ => trivial⟩

end SessionSync.Server
