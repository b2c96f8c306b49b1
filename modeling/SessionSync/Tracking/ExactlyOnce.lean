import SessionSync.Tracking.Effects

set_option autoImplicit false

namespace SessionSync.Tracking

open SessionSync.Core Checked Schedule

abbrev TrackingEvent := Event TrackingDb String Reply Call

-- Nothing in between changed the record of the key.
def Untouched (key : TrackingKey) (events : List TrackingEvent) : Prop :=
  ∀ call before rest after, .acted call before rest after ∈ events → after.namespaceTracking[key]? = before.namespaceTracking[key]?

-- What holds of the accesses of a run, in the order they took place.
structure ExactlyOnce (events : List TrackingEvent) : Prop where
  grows : ∀ call before rest after, .acted call before rest after ∈ events → ∀ key,
    after.generation key = before.generation key ∨ Installs call key before rest after
  updated : ∀ call before record after, .acted call before (.ret (.record record)) after ∈ events → ∀ key expected head,
    call.update = some (key, expected, head) → Installs call key before (.ret (.record record)) after ∨
      call.replays = true ∧ after = before ∧ ∃ row, before.namespaceTracking[key]? = some row ∧ row.record key = record ∧
        row.integratedHead = head ∧ row.generation = (expected.map UInt64.toInt64).getD 0 + 1
  once : ∀ first mid last call before rest after other seen left ends key expected head wanted,
    events = first ++ .acted call before rest after :: (mid ++ .acted other seen left ends :: last) →
      call.update = some (key, expected, head) → other.update = some (key, expected, wanted) →
        Installs call key before rest after → ¬ Installs other key seen left ends
  repeated : ∀ first mid last home remoteId namespaceId expected head activating now later before record after seen left ends,
    events = first ++ .acted (.reconcileCheckout (.ok home) remoteId namespaceId expected head activating now) before
        (.ret (.record record)) after ::
      (mid ++ .acted (.reconcileCheckout (.ok home) remoteId namespaceId expected head activating later) seen left ends :: last) →
      Untouched (home, remoteId, namespaceId) mid → (activating = true → isActive seen (home, remoteId, namespaceId)) →
        left = .ret (.record record) ∧ ends = seen
  refused : ∀ call taken, .failed call taken ∈ events → call.rereads = false → ∀ pair ∈ taken, pair.2 = pair.1
  stale : ∀ home reread remoteId namespaceId expected epoch now before rest after,
    .acted (.updateRemoteEpoch (.ok home) reread remoteId namespaceId expected epoch now) before rest after ∈ events →
      before.generation (home, remoteId, namespaceId) ≠ some expected.toInt64 → after = before
  unmade : ∀ home reread remoteId namespaceId expected epoch now taken,
    .failed (.updateRemoteEpoch home reread remoteId namespaceId expected epoch now) taken ∈ events →
      (∀ codexHomeKey, home = .ok codexHomeKey → ∀ pair ∈ taken.head?,
        pair.1.generation (codexHomeKey, remoteId, namespaceId) ≠ some expected.toInt64) →
      ∀ pair ∈ taken, pair.2 = pair.1
  others : ∀ call before rest after, .acted call before rest after ∈ events → ∀ key, call.key ≠ some key →
    after.namespaceTracking[key]? = before.namespaceTracking[key]?

theorem update_key (call : Call) (key : TrackingKey) (expected : Option UInt64) (head : Option String)
    (asked : call.update = some (key, expected, head)) : call.key = some key := by
  cases call with
  | compareAndSet home | reconcileCheckout home =>
      cases home with
      | error _ => cases asked
      | ok _ =>
          cases asked
          rfl
  | updateRemoteEpoch | setActive => cases asked

theorem effect_others {checks : Bool} {call : Call} {before after : TrackingDb} {rest : Access Reply}
    (effect : Effect checks call before rest after) (key : TrackingKey) (other : call.key ≠ some key) :
    after.namespaceTracking[key]? = before.namespaceTracking[key]? := by
  have elsewhere : ∀ own, call.key = some own → key ≠ own := fun own named same => other (same ▸ named)
  cases effect with
  | refused error => rfl
  | replayed => rfl
  | quiet _ _ _ kept => rw [kept]
  | installed own expected head asked _ row _ _ _ inserted =>
      rw [inserted, Keyed.lookup_insert, if_neg (elsewhere own (update_key call own expected head asked))]
  | reconciled own asked _ _ _ _ _ _ _ inserted => rw [inserted, Keyed.lookup_insert, if_neg (elsewhere own asked)]

theorem effect_updated {checks : Bool} {call : Call} {before after : TrackingDb} {record : TrackingRecord} {count : Nat}
    (settled : Settled count before) (room : checks = true ∨ count + 1 < 2 ^ 63)
    (effect : Effect checks call before (.ret (.record record)) after) (key : TrackingKey) (expected : Option UInt64)
    (head : Option String) (asked : call.update = some (key, expected, head)) :
    Installs call key before (.ret (.record record)) after ∨
      call.replays = true ∧ after = before ∧ ∃ row, before.namespaceTracking[key]? = some row ∧ row.record key = record ∧
        row.integratedHead = head ∧ row.generation = (expected.map UInt64.toInt64).getD 0 + 1 := by
  cases effect with
  | installed own wanted named same current row made next after inserted =>
      cases asked.symm.trans same
      refine .inl ⟨expected, head, row, asked, rfl, current, ?_, made, installed_next settled room key row next⟩
      rw [inserted, Keyed.lookup_insert, if_pos rfl]
  | replayed own wanted named same again row stored made next =>
      cases asked.symm.trans same
      exact .inr ⟨again, rfl, row, stored, rfl, made, next⟩
  | reconciled _ _ other => cases asked.symm.trans other
  | quiet other => cases asked.symm.trans other

-- Whatever reconciled a checkout, its row is there afterwards.
theorem reconcile_leaves (key : TrackingKey) (expected : Option UInt64) (current : Option Int64) (next : Int64) (head : Option String)
    (activating : Bool) (now : String) (before after : TrackingDb) (record : TrackingRecord)
    (run : reconcileHead key expected current next head activating now before = .ok (record, after)) :
    ∃ row, alreadyApplied after key next head = some row ∧ row.record key = record := by
  cases replay : alreadyApplied before key next head with
  | some row =>
      obtain ⟨_, made, rfl⟩ := (reconcile_replay_ok _ _ _ _ _ _ _ _ _ _ row replay).mp run
      exact ⟨row, replay, made⟩
  | none =>
      obtain ⟨_, row, made, named, rfl⟩ := (reconcile_install_ok _ _ _ _ _ _ _ _ _ _ replay).mp run
      refine ⟨row, (already_applied_some _ _ _ _ _).mpr ⟨?_, by rw [made], by rw [made]⟩, named⟩
      cases activating <;> exact (Keyed.lookup_insert _ _ _ _).trans (if_pos rfl)

theorem set_epoch_stale (key : TrackingKey) (expected epoch : UInt64) (now : String) (db : TrackingDb)
    (other : db.generation key ≠ some expected.toInt64) : (setRemoteEpoch key expected epoch now db).2 = db := by
  rw [setRemoteEpoch]
  cases found : db.namespaceTracking[key]?.filter fun row => row.generation = expected.toInt64 with
  | none => rfl
  | some row =>
      obtain ⟨stored, current⟩ := Option.filter_eq_some_iff.mp found
      rw [TrackingDb.generation, stored, Option.map_some, of_decide_eq_true current] at other
      exact absurd rfl other

section Runs

variable {checks : Bool} {events : List TrackingEvent} {last : World TrackingDb String Reply Call} (run : Started checks events last)

include run

theorem reconcile_repeated (first mid later : List TrackingEvent) (home : String) (remoteId namespaceId : Uuid)
    (expected : Option UInt64) (head : Option String) (activating : Bool) (now again : String) (before after seen ends : TrackingDb)
    (record : TrackingRecord) (left : Access Reply)
    (split : events = first ++ .acted (.reconcileCheckout (.ok home) remoteId namespaceId expected head activating now) before
        (.ret (.record record)) after ::
      (mid ++ .acted (.reconcileCheckout (.ok home) remoteId namespaceId expected head activating again) seen left ends :: later))
    (untouched : Untouched (home, remoteId, namespaceId) mid)
    (active : activating = true → isActive seen (home, remoteId, namespaceId)) :
    left = .ret (.record record) ∧ ends = seen := by
  subst split
  obtain ⟨_, one, _, _, starts, rest⟩ := run_acted _ _ _ _ _ _ _ _ run
  obtain ⟨two, _, between, stops, _, _⟩ := run_acted _ _ _ _ _ _ _ _ rest
  have kept : after.namespaceTracking[(home, remoteId, namespaceId)]? = seen.namespaceTracking[(home, remoteId, namespaceId)]? := by
    rw [← starts, ← stops]
    exact run_relates (fun db later => db.namespaceTracking[(home, remoteId, namespaceId)]? =
      later.namespaceTracking[(home, remoteId, namespaceId)]?)
      (fun _ => rfl) (fun _ _ _ => Eq.trans) one two mid between fun call start left stop member =>
        (untouched call start left stop member).symm
  obtain ⟨taken, begun⟩ := acted_fits run (List.mem_append_right first List.mem_cons_self)
  obtain ⟨more, retried⟩ := acted_fits run
    (List.mem_append_right first (List.mem_cons_of_mem _ (List.mem_append_right mid List.mem_cons_self)))
  rcases reconcile_acts begun with none_ | ⟨key, next, resolved, counted, state,
    ⟨written, stop, wrote, same, made⟩ | ⟨_, _, _, impossible⟩⟩
  · exact absurd none_ (List.append_ne_nil_of_right_ne_nil _ (List.cons_ne_nil _ _))
  · cases resolved
    cases made
    cases single_of_append same
    obtain ⟨row, applied, named⟩ := reconcile_leaves _ _ _ _ _ _ _ _ _ _ wrote
    have still : alreadyApplied seen (home, remoteId, namespaceId) next.2 head = some row := by
      rw [← applied, alreadyApplied, alreadyApplied, kept]
    have replay := (reconcile_replay_ok _ expected next.1 _ _ activating again _ seen record row still).mpr ⟨active, named, rfl⟩
    rcases reconcile_acts retried with
      none_ | ⟨key, other, resolved, recounted, state, ⟨written, stop, wrote, same, made⟩ | ⟨_, failed, same, _⟩⟩
    · exact absurd none_ (List.append_ne_nil_of_right_ne_nil _ (List.cons_ne_nil _ _))
    · cases resolved
      cases single_of_append same
      cases counted.symm.trans recounted
      cases replay.symm.trans wrote
      exact ⟨made, rfl⟩
    · cases resolved
      cases single_of_append same
      cases counted.symm.trans recounted
      cases replay.symm.trans failed
  · cases impossible

theorem failed_unchanged (call : Call) (taken : List (TrackingDb × TrackingDb)) (member : .failed call taken ∈ events)
    (plain : call.rereads = false) : ∀ pair ∈ taken, pair.2 = pair.1 := by
  obtain ⟨rest, left, unreturned⟩ := run_fits _ _ _ run (List.forall_mem_nil _) _ member
  cases call with
  | compareAndSet home remoteId namespaceId expected head now =>
      rcases compare_acts left with rfl | ⟨_, _, _, ⟨record, _, _, _, returned⟩ | ⟨_, rfl, _⟩⟩
      · exact List.forall_mem_nil _
      · exact absurd returned (unreturned _)
      · exact List.forall_mem_singleton.mpr rfl
  | reconcileCheckout home remoteId namespaceId expected head activating now =>
      rcases reconcile_acts left with rfl | ⟨_, _, _, _, _, ⟨record, _, _, _, returned⟩ | ⟨_, _, rfl, _⟩⟩
      · exact List.forall_mem_nil _
      · exact absurd returned (unreturned _)
      · exact List.forall_mem_singleton.mpr rfl
  | updateRemoteEpoch => cases plain
  | setActive home remoteId namespaceId now =>
      rcases active_acts left with rfl | ⟨_, _, _, _, returned⟩
      · exact List.forall_mem_nil _
      · exact absurd returned (unreturned _)

theorem stale_unchanged (home : String) (reread : Except String String) (remoteId namespaceId : Uuid) (expected epoch : UInt64)
    (now : String) (before after : TrackingDb) (rest : Access Reply)
    (member : .acted (.updateRemoteEpoch (.ok home) reread remoteId namespaceId expected epoch now) before rest after ∈ events)
    (other : before.generation (home, remoteId, namespaceId) ≠ some expected.toInt64) : after = before := by
  obtain ⟨taken, left⟩ := acted_fits run member
  rcases epoch_acts left with none_ | ⟨_, first, second, more, resolved, same, ends, kept⟩
  · exact absurd none_ (List.append_ne_nil_of_right_ne_nil _ (List.cons_ne_nil _ _))
  cases resolved
  cases taken with
  | nil =>
      cases (List.cons.inj same).1
      rw [ends]
      exact set_epoch_stale _ _ _ _ _ other
  | cons pair earlier => exact kept (before, after) ((List.cons.inj same).2 ▸ List.mem_append_right _ List.mem_cons_self)

-- A call that fails has changed nothing unless its UPDATE found the expected generation.
theorem epoch_unchanged (home reread : Except String String) (remoteId namespaceId : Uuid) (expected epoch : UInt64) (now : String)
    (taken : List (TrackingDb × TrackingDb))
    (member : .failed (.updateRemoteEpoch home reread remoteId namespaceId expected epoch now) taken ∈ events)
    (other : ∀ codexHomeKey, home = .ok codexHomeKey → ∀ pair ∈ taken.head?,
      pair.1.generation (codexHomeKey, remoteId, namespaceId) ≠ some expected.toInt64) : ∀ pair ∈ taken, pair.2 = pair.1 := by
  obtain ⟨rest, left, _⟩ := run_fits _ _ _ run (List.forall_mem_nil _) _ member
  rcases epoch_acts left with rfl | ⟨codexHomeKey, first, second, more, resolved, rfl, ends, kept⟩
  · exact List.forall_mem_nil _
  · refine List.forall_mem_cons.mpr ⟨?_, kept⟩
    rw [ends]
    exact set_epoch_stale _ _ _ _ _ (other codexHomeKey resolved (first, second) rfl)

theorem installed_once (room : checks = true ∨ events.length < 2 ^ 63) (first mid later : List TrackingEvent) (call other : Call)
    (before after seen ends : TrackingDb) (rest left : Access Reply) (key : TrackingKey) (expected : Option UInt64)
    (head wanted : Option String)
    (split : events = first ++ .acted call before rest after :: (mid ++ .acted other seen left ends :: later))
    (asked : call.update = some (key, expected, head)) (also : other.update = some (key, expected, wanted))
    (one : Installs call key before rest after) : ¬ Installs other key seen left ends := by
  rintro ⟨_, _, _, same, _, current, _⟩
  cases also.symm.trans same
  obtain ⟨_, _, row, named, _, began, stored, _, next⟩ := one
  cases asked.symm.trans named
  have each : ∀ call before rest after, .acted call before rest after ∈ mid → before.level key ≤ after.level key := by
    intro call start left stop member
    have inside : .acted call start left stop ∈ events := by
      rw [split]
      exact List.mem_append_right _ (List.mem_cons_of_mem _ (List.mem_append_left _ member))
    obtain ⟨effect, count, settled, few⟩ := acted_settled run room inside
    exact effect_level settled few effect key
  subst split
  obtain ⟨_, start, _, _, starts, rest⟩ := run_acted _ _ _ _ _ _ _ _ run
  obtain ⟨stop, _, between, stops, _, _⟩ := run_acted _ _ _ _ _ _ _ _ rest
  have grown : after.level key ≤ seen.level key := by
    rw [← starts, ← stops]
    exact run_relates (fun db later => db.level key ≤ later.level key) (fun _ => Int.le_refl _) (fun _ _ _ => Int.le_trans)
      start stop mid between each
  have here : after.level key = before.level key + 1 := by
    rw [← next, TrackingDb.level, TrackingDb.generation, stored, Option.map_some, Option.map_some, Option.getD_some]
  have same : seen.level key = before.level key := by rw [TrackingDb.level, current, ← began, ← TrackingDb.level]
  omega

end Runs

-- Where additions are not checked, a run has to be shorter than the range of i64.
theorem tracking_exactly_once (checks : Bool) (events : List TrackingEvent) (last : World TrackingDb String Reply Call)
    (run : Started checks events last) (room : checks = true ∨ events.length < 2 ^ 63) : ExactlyOnce events where
  grows call before rest after member key := by
    obtain ⟨effect, count, settled, few⟩ := acted_settled run room member
    exact effect_generation settled few effect key
  updated call before record after member key expected head asked := by
    obtain ⟨effect, count, settled, few⟩ := acted_settled run room member
    exact effect_updated settled few effect key expected head asked
  once first mid later call before rest after other seen left ends key expected head wanted split asked also :=
    installed_once run room first mid later call other before after seen ends rest left key expected head wanted split asked also
  repeated first mid later home remoteId namespaceId expected head activating now again before record after seen left ends split :=
    reconcile_repeated run first mid later home remoteId namespaceId expected head activating now again before after seen ends record
      left split
  refused := failed_unchanged run
  stale home reread remoteId namespaceId expected epoch now before rest after member :=
    stale_unchanged run home reread remoteId namespaceId expected epoch now before after rest member
  unmade home reread remoteId namespaceId expected epoch now taken member :=
    epoch_unchanged run home reread remoteId namespaceId expected epoch now taken member
  others call before rest after member key other := by
    obtain ⟨effect, _⟩ := acted_settled run room member
    exact effect_others effect key other

namespace Sample

def key : TrackingKey := ("home", BitVec.ofNat 128 1, BitVec.ofNat 128 2)

def checkout : Call := .reconcileCheckout (.ok key.1) key.2.1 key.2.2 none none true "now"

def switch : Call := .setActive (.ok key.1) key.2.1 (BitVec.ofNat 128 3) "now"

def row : TrackingRow := ⟨none, 0, 1, "now"⟩

def first : TrackingDb := ⟨TrackingDb.initialized.namespaceTracking.insert key row,
  TrackingDb.initialized.activeNamespace.insert key.1 ⟨key.2.1, key.2.2, "now"⟩⟩

def second : TrackingDb := { first with activeNamespace := first.activeNamespace.insert key.1 ⟨key.2.1, BitVec.ofNat 128 3, "now"⟩ }

def refusal : String := "tracking checkout was committed without the expected active namespace"

def switched : List TrackingEvent :=
  [.began switch, .acted switch first (.ret (.binding ⟨key.2.1, BitVec.ofNat 128 3, key.1, "now"⟩)) second]

def events : List TrackingEvent :=
  [.began checkout, .acted checkout TrackingDb.initialized (.ret (.record (row.record key))) first] ++ switched ++
    [.began checkout, .acted checkout second (.fail refusal) second]

def reconciled : TrackingDb → Except String TrackingRecord × TrackingDb :=
  Prog.attemptStep (reconcileHead key none none 1 none true "now")

theorem checkout_prog : checkout.prog true = .act reconciled fun record => Reply.record <$> Prog.ofExcept record := rfl

theorem switch_prog : switch.prog true = .act
    (fun db => ((), activate (key.1, key.2.1, BitVec.ofNat 128 3) "now" db))
    fun _ => .ret (.binding ⟨key.2.1, BitVec.ofNat 128 3, key.1, "now"⟩) := rfl

theorem first_reconcile : reconcileHead key none none 1 none true "now" TrackingDb.initialized = .ok (row.record key, first) := by
  have absent : TrackingDb.initialized.namespaceTracking[key]? = none := Std.ExtTreeMap.getElem?_empty
  have fresh : alreadyApplied TrackingDb.initialized key 1 none = none := by rw [alreadyApplied, absent, Option.filter_none]
  refine (reconcile_install_ok _ _ _ _ _ _ _ _ _ _ fresh).mpr ⟨?_, row, ?_, rfl, rfl⟩
  · rw [TrackingDb.generation, absent, Option.map_none]
  · rw [absent]
    rfl

theorem second_reconcile : reconcileHead key none none 1 none true "now" second = .error refusal := by
  have applied : alreadyApplied second key 1 none = some row :=
    (already_applied_some _ _ _ _ _).mpr ⟨(Keyed.lookup_insert _ _ _ _).trans (if_pos rfl), rfl, rfl⟩
  have moved : ¬ isActive second key := by
    rw [isActive, second, Keyed.lookup_insert, if_pos rfl]
    decide
  simp only [reconcileHead, applied, ensure, moved, imp_false, not_true_eq_false, if_false]
  rfl

theorem events_run : ∃ last, Started true events last := by
  have one := run_begins (Call.prog true) TrackingDb.initialized [] checkout _ _ checkout_prog
  rw [reconciled, Prog.attemptStep, first_reconcile] at one
  have two := run_begins (Call.prog true) first [⟨checkout, [(TrackingDb.initialized, first)], .ret (.record (row.record key))⟩]
    switch _ _ switch_prog
  have three := fun running => run_begins (Call.prog true) second running checkout _ _ checkout_prog
  rw [reconciled] at three
  simp only [Prog.attemptStep, second_reconcile] at three
  exact ⟨_, (run_append _ _ _ _).mpr ⟨_, (run_append _ _ _ _).mpr ⟨_, one, two⟩, three _⟩⟩

end Sample

theorem sample_exactly_once : ∃ last, Started true Sample.events last ∧ ExactlyOnce Sample.events := by
  obtain ⟨last, run⟩ := Sample.events_run
  exact ⟨last, run, tracking_exactly_once true Sample.events last run (.inl rfl)⟩

-- The same checkout again, with its record untouched but another namespace active.
theorem repeat_needs_active : (∃ last, Started true Sample.events last) ∧
    Sample.events = [.began Sample.checkout] ++ .acted Sample.checkout TrackingDb.initialized
        (.ret (.record (Sample.row.record Sample.key))) Sample.first ::
      (Sample.switched ++ [.began Sample.checkout] ++
        .acted Sample.checkout Sample.second (.fail Sample.refusal) Sample.second :: []) ∧
    Untouched Sample.key (Sample.switched ++ [.began Sample.checkout]) := by
  refine ⟨Sample.events_run, rfl, fun call before rest after member => ?_⟩
  simp only [Sample.switched, List.cons_append, List.nil_append, List.mem_cons, reduceCtorEq, Event.acted.injEq, List.not_mem_nil,
    false_or, or_false] at member
  obtain ⟨_, rfl, _, rfl⟩ := member
  rfl

end SessionSync.Tracking
