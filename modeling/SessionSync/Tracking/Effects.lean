import SessionSync.Tracking.Store
import SessionSync.Lib.Schedule

set_option autoImplicit false

namespace SessionSync.Tracking

open SessionSync.Core Checked Schedule

-- The key, the expected generation and the head of a call that sets a head.
def Call.update : Call → Option (TrackingKey × Option UInt64 × Option String)
  | .compareAndSet (.ok home) remoteId namespaceId expected head _ => some ((home, remoteId, namespaceId), expected, head)
  | .reconcileCheckout (.ok home) remoteId namespaceId expected head _ _ => some ((home, remoteId, namespaceId), expected, head)
  | _ => none

-- The key a call is about, once its home is known.
def Call.key : Call → Option TrackingKey
  | .compareAndSet (.ok home) remoteId namespaceId _ _ _ => some (home, remoteId, namespaceId)
  | .reconcileCheckout (.ok home) remoteId namespaceId _ _ _ _ => some (home, remoteId, namespaceId)
  | .updateRemoteEpoch (.ok home) _ remoteId namespaceId _ _ _ => some (home, remoteId, namespaceId)
  | .setActive (.ok home) remoteId namespaceId _ => some (home, remoteId, namespaceId)
  | _ => none

-- The calls that succeed once more when their head is already there.
def Call.replays : Call → Bool
  | .reconcileCheckout .. => true
  | _ => false

-- The call that reads its record back in a second access.
def Call.rereads : Call → Bool
  | .updateRemoteEpoch .. => true
  | _ => false

def TrackingDb.generation (db : TrackingDb) (key : TrackingKey) : Option Int64 := db.namespaceTracking[key]?.map (·.generation)

-- What one action of a call may do.
inductive Effect (checks : Bool) (call : Call) (before : TrackingDb) : Access Reply → TrackingDb → Prop where
  | refused (error : String) : Effect checks call before (.fail error) before
  | installed (key : TrackingKey) (expected : Option UInt64) (head : Option String) (asked : call.update = some (key, expected, head))
      (current : before.generation key = expected.map UInt64.toInt64) (row : TrackingRow) (named : row.integratedHead = head)
      (next : addOne checks ((before.generation key).getD 0) = .ok row.generation) (after : TrackingDb)
      (stored : after.namespaceTracking = before.namespaceTracking.insert key row) :
      Effect checks call before (.ret (.record (row.record key))) after
  | replayed (key : TrackingKey) (expected : Option UInt64) (head : Option String) (asked : call.update = some (key, expected, head))
      (again : call.replays = true) (row : TrackingRow) (stored : before.namespaceTracking[key]? = some row)
        (named : row.integratedHead = head)
      (next : row.generation = (expected.map UInt64.toInt64).getD 0 + 1) :
      Effect checks call before (.ret (.record (row.record key))) before
  | reconciled (key : TrackingKey) (asked : call.key = some key) (epochs : call.update = none) (old row : TrackingRow)
      (stored : before.namespaceTracking[key]? = some old) (same : row.generation = old.generation) (rest : Access Reply)
      (after : TrackingDb) (changed : after.namespaceTracking = before.namespaceTracking.insert key row) :
      Effect checks call before rest after
  | quiet (other : call.update = none) (rest : Access Reply) (after : TrackingDb)
      (kept : after.namespaceTracking = before.namespaceTracking) : Effect checks call before rest after

theorem set_head_ok (checks : Bool) (key : TrackingKey) (expected : Option UInt64) (head : Option String) (now : String)
    (db after : TrackingDb) (record : TrackingRecord) :
    setHead checks key expected head now db = .ok (record, after) ↔ db.generation key = expected.map UInt64.toInt64 ∧
      ∃ generation, addOne checks ((db.generation key).getD 0) = .ok generation ∧
        ∃ row, row = ⟨head, ((db.namespaceTracking[key]?).map (·.remoteEpoch)).getD 0, generation, now⟩ ∧ row.record key = record ∧
          { db with namespaceTracking := db.namespaceTracking.insert key row } = after := by
  simp only [setHead, bind_ok, ensure_ok, pure_ok, Prod.mk.injEq, TrackingDb.generation, exists_eq_left, exists_const]

theorem already_applied_some (db : TrackingDb) (key : TrackingKey) (next : Int64) (head : Option String) (row : TrackingRow) :
    alreadyApplied db key next head = some row ↔
      db.namespaceTracking[key]? = some row ∧ row.generation = next ∧ row.integratedHead = head := by
  rw [alreadyApplied, Option.filter_eq_some_iff, decide_eq_true_iff]

theorem reconcile_replay_ok (key : TrackingKey) (expectedGeneration : Option UInt64) (expected : Option Int64) (next : Int64)
    (head : Option String) (activating : Bool) (now : String) (db after : TrackingDb) (record : TrackingRecord) (row : TrackingRow)
    (replay : alreadyApplied db key next head = some row) :
    reconcileHead key expectedGeneration expected next head activating now db = .ok (record, after) ↔
      (activating = true → isActive db key) ∧ row.record key = record ∧ db = after := by
  simp only [reconcileHead, replay, bind_ok, ensure_ok, pure_ok, Prod.mk.injEq, exists_const]

theorem reconcile_install_ok (key : TrackingKey) (expectedGeneration : Option UInt64) (expected : Option Int64) (next : Int64)
    (head : Option String) (activating : Bool) (now : String) (db after : TrackingDb) (record : TrackingRecord)
    (fresh : alreadyApplied db key next head = none) :
    reconcileHead key expectedGeneration expected next head activating now db = .ok (record, after) ↔ db.generation key = expected ∧
      ∃ row, row = ⟨head, ((db.namespaceTracking[key]?).map (·.remoteEpoch)).getD 0, next, now⟩ ∧ row.record key = record ∧
        (if activating then activate key now { db with namespaceTracking := db.namespaceTracking.insert key row }
          else { db with namespaceTracking := db.namespaceTracking.insert key row }) = after := by
  simp only [reconcileHead, fresh, bind_ok, ensure_ok, pure_ok, Prod.mk.injEq, TrackingDb.generation, exists_eq_left, exists_const]

theorem next_generation_ok (expected : Option UInt64) (current : Option Int64) (next : Int64)
    (run : nextGeneration expected = .ok (current, next)) :
    current = expected.map UInt64.toInt64 ∧ current.getD 0 ≠ Int64.maxValue ∧ next = current.getD 0 + 1 := by
  simp only [nextGeneration, bind_ok, ensure_ok, pure_ok, Prod.mk.injEq] at run
  obtain ⟨found, converted, _, room, rfl, rfl⟩ := run
  refine ⟨?_, room, rfl⟩
  cases expected with
  | none =>
      cases converted
      rfl
  | some value =>
      simp only [Option.mapM_some, toGeneration, map_eq_pure_bind, bind_ok, ensure_ok, pure_ok] at converted
      obtain ⟨_, ⟨_, _, rfl⟩, rfl⟩ := converted
      rfl

section Acts

variable {checks : Bool} {taken : List (TrackingDb × TrackingDb)} {rest : Access Reply}

theorem compare_acts {home : Except String String} {remoteId namespaceId : Uuid} {expected : Option UInt64} {head : Option String}
    {now : String} (left : After ((Call.compareAndSet home remoteId namespaceId expected head now).prog checks) taken rest) :
    taken = [] ∨ ∃ codexHomeKey, home = .ok codexHomeKey ∧ ∃ before,
      (∃ record after, setHead checks (codexHomeKey, remoteId, namespaceId) expected head now before = .ok (record, after) ∧
        taken = [(before, after)] ∧ rest = .ret (.record record)) ∨
      ∃ error, taken = [(before, before)] ∧ rest = .fail error := by
  rcases after_check _ _ _ _ _ left with none_ | ⟨_, _, left⟩
  · exact .inl none_
  rcases after_check _ _ _ _ _ left with none_ | ⟨codexHomeKey, resolved, left⟩
  · exact .inl none_
  rcases after_transact _ _ _ _ left with none_ | ⟨before, outcome | ⟨error, _, refused⟩⟩
  · exact .inl none_
  · exact .inr ⟨codexHomeKey, resolved, before, .inl outcome⟩
  · exact .inr ⟨codexHomeKey, resolved, before, .inr ⟨error, refused⟩⟩

theorem reconcile_acts {home : Except String String} {remoteId namespaceId : Uuid} {expected : Option UInt64} {head : Option String}
    {activating : Bool} {now : String}
    (left : After ((Call.reconcileCheckout home remoteId namespaceId expected head activating now).prog checks) taken rest) :
    taken = [] ∨ ∃ codexHomeKey next, home = .ok codexHomeKey ∧ nextGeneration expected = .ok next ∧ ∃ before,
      (∃ record after, reconcileHead (codexHomeKey, remoteId, namespaceId) expected next.1 next.2 head activating now before =
        .ok (record, after) ∧ taken = [(before, after)] ∧ rest = .ret (.record record)) ∨
      ∃ error, reconcileHead (codexHomeKey, remoteId, namespaceId) expected next.1 next.2 head activating now before = .error error ∧
        taken = [(before, before)] ∧ rest = .fail error := by
  rcases after_check _ _ _ _ _ left with none_ | ⟨_, _, left⟩
  · exact .inl none_
  rcases after_check _ _ _ _ _ left with none_ | ⟨codexHomeKey, resolved, left⟩
  · exact .inl none_
  rcases after_check _ _ _ _ _ left with none_ | ⟨next, counted, left⟩
  · exact .inl none_
  rcases after_transact _ _ _ _ left with none_ | ⟨before, outcome⟩
  · exact .inl none_
  · exact .inr ⟨codexHomeKey, next, resolved, counted, before, outcome⟩

theorem active_acts {home : Except String String} {remoteId namespaceId : Uuid} {now : String}
    (left : After ((Call.setActive home remoteId namespaceId now).prog checks) taken rest) :
    taken = [] ∨ ∃ codexHomeKey, home = .ok codexHomeKey ∧ ∃ before,
      taken = [(before, activate (codexHomeKey, remoteId, namespaceId) now before)] ∧
        rest = .ret (.binding ⟨remoteId, namespaceId, codexHomeKey, now⟩) := by
  rcases after_check _ _ _ _ _ left with none_ | ⟨codexHomeKey, resolved, left⟩
  · exact .inl none_
  cases taken with
  | nil => exact .inl rfl
  | cons pair more =>
      obtain ⟨ends, left⟩ := left
      cases more with
      | nil => exact .inr ⟨codexHomeKey, resolved, pair.1, congrArg (fun after => [(pair.1, after)]) ends, (after_nil _ _).mp left⟩
      | cons _ _ => exact left.elim

-- Reading the record back changes nothing.
theorem reread_acts {reread : Except String String} {remoteId namespaceId : Uuid}
    (left : After (Reply.record <$> (load reread remoteId namespaceId >>= fun record =>
      Prog.ofExcept (found record "tracking record disappeared"))) taken rest) : ∀ pair ∈ taken, pair.2 = pair.1 := by
  cases reread with
  | error error =>
      cases taken with
      | nil => exact List.forall_mem_nil _
      | cons _ _ => exact left.elim
  | ok codexHomeKey =>
      cases taken with
      | nil => exact List.forall_mem_nil _
      | cons pair more =>
          obtain ⟨ends, left⟩ := left
          rw [after_done _ _ more rest left]
          exact List.forall_mem_singleton.mpr ends

-- The UPDATE, and then at most a read.
theorem epoch_acts {home reread : Except String String} {remoteId namespaceId : Uuid} {expected remoteEpoch : UInt64} {now : String}
    (left : After ((Call.updateRemoteEpoch home reread remoteId namespaceId expected remoteEpoch now).prog checks) taken rest) :
    taken = [] ∨ ∃ codexHomeKey before after more, home = .ok codexHomeKey ∧ taken = (before, after) :: more ∧
      after = (setRemoteEpoch (codexHomeKey, remoteId, namespaceId) expected remoteEpoch now before).2 ∧
      ∀ pair ∈ more, pair.2 = pair.1 := by
  rcases after_check _ _ _ _ _ left with none_ | ⟨codexHomeKey, resolved, left⟩
  · exact .inl none_
  cases taken with
  | nil => exact .inl rfl
  | cons pair more =>
      obtain ⟨ends, left⟩ := left
      refine .inr ⟨codexHomeKey, pair.1, pair.2, more, resolved, rfl, ends, ?_⟩
      rcases after_check _ _ _ _ _ left with none_ | ⟨_, _, left⟩
      · exact none_ ▸ List.forall_mem_nil _
      · exact reread_acts left

theorem single_of_append {taken : List (TrackingDb × TrackingDb)} {pair other : TrackingDb × TrackingDb}
    (same : taken ++ [pair] = [other]) : pair = other := by
  cases taken with
  | nil => exact List.singleton_inj.mp same
  | cons _ _ => simp at same

theorem set_epoch_effect (call : Call) (key : TrackingKey) (asked : call.key = some key) (other : call.update = none)
    (expected remoteEpoch : UInt64) (now : String) (before : TrackingDb) (rest : Access Reply) :
    Effect checks call before rest (setRemoteEpoch key expected remoteEpoch now before).2 := by
  unfold setRemoteEpoch
  cases found : before.namespaceTracking[key]?.filter fun row => row.generation = expected.toInt64 with
  | none => exact .quiet other rest before rfl
  | some row =>
      refine .reconciled key asked other row { row with remoteEpoch := remoteEpoch.toInt64, updatedAt := now } ?_ rfl rest _ rfl
      exact (Option.filter_eq_some_iff.mp found).1

theorem reconcile_effect (key : TrackingKey) (expected : Option UInt64) (current : Option Int64) (next : Int64) (head : Option String)
    (activating : Bool) (now : String) (call : Call) (asked : call.update = some (key, expected, head)) (again : call.replays = true)
    (counted : nextGeneration expected = .ok (current, next)) (before after : TrackingDb) (record : TrackingRecord)
    (run : reconcileHead key expected current next head activating now before = .ok (record, after)) :
    Effect checks call before (.ret (.record record)) after := by
  obtain ⟨rfl, room, rfl⟩ := next_generation_ok expected current next counted
  cases replay : alreadyApplied before key ((expected.map UInt64.toInt64).getD 0 + 1) head with
  | some row =>
      obtain ⟨_, rfl, rfl⟩ := (reconcile_replay_ok _ _ _ _ _ _ _ _ _ _ row replay).mp run
      obtain ⟨stored, next, named⟩ := (already_applied_some before key _ head row).mp replay
      exact .replayed key expected head asked again row stored named next
  | none =>
      obtain ⟨same, row, made, rfl, rfl⟩ := (reconcile_install_ok _ _ _ _ _ _ _ _ _ _ replay).mp run
      refine .installed key expected head asked same row (by rw [made]) ?_ _ ?_
      · simp only [addOne, bind_ok, ensure_ok, pure_ok, same, made]
        exact ⟨(), fun both => room both.2, trivial⟩
      · cases activating <;> rfl

-- What an action does, whichever call it belongs to.
theorem acted_effect (call : Call) (before after : TrackingDb) (left : After (call.prog checks) (taken ++ [(before, after)]) rest) :
    Effect checks call before rest after := by
  have some_ : taken ++ [(before, after)] ≠ [] := List.append_ne_nil_of_right_ne_nil _ (List.cons_ne_nil _ _)
  cases call with
  | compareAndSet home remoteId namespaceId expected head now =>
      rcases compare_acts left with none_ | ⟨codexHomeKey, rfl, seen, ⟨record, ends, run, same, rfl⟩ | ⟨error, same, rfl⟩⟩
      · exact absurd none_ some_
      · cases single_of_append same
        obtain ⟨current, generation, next, row, made, rfl, rfl⟩ := (set_head_ok _ _ _ _ _ _ _ _).mp run
        exact .installed _ expected head rfl current row (by rw [made]) (by rw [next, made]) _ rfl
      · cases single_of_append same
        exact .refused error
  | reconcileCheckout home remoteId namespaceId expected head activating now =>
      rcases reconcile_acts left with
        none_ | ⟨codexHomeKey, next, rfl, counted, seen, ⟨record, ends, run, same, rfl⟩ | ⟨error, _, same, rfl⟩⟩
      · exact absurd none_ some_
      · cases single_of_append same
        exact reconcile_effect _ expected next.1 next.2 head activating now _ rfl rfl counted before after record run
      · cases single_of_append same
        exact .refused error
  | updateRemoteEpoch home reread remoteId namespaceId expected remoteEpoch now =>
      rcases epoch_acts left with none_ | ⟨codexHomeKey, first, second, more, rfl, same, ends, kept⟩
      · exact absurd none_ some_
      cases taken with
      | nil =>
          obtain ⟨pair, _⟩ := List.cons.inj same
          cases pair
          rw [ends]
          exact set_epoch_effect _ _ rfl rfl _ _ _ _ _
      | cons pair earlier =>
          obtain ⟨_, later⟩ := List.cons.inj same
          have unchanged : after = before := kept (before, after) (later ▸ List.mem_append_right _ List.mem_cons_self)
          exact .quiet rfl rest after (congrArg TrackingDb.namespaceTracking unchanged)
  | setActive home remoteId namespaceId now =>
      rcases active_acts left with none_ | ⟨codexHomeKey, rfl, seen, same, rfl⟩
      · exact absurd none_ some_
      · cases single_of_append same
        exact .quiet rfl _ _ rfl

end Acts

theorem add_one_next (checks : Bool) (generation next : Int64) (added : addOne checks generation = .ok next)
    (room : checks = true ∨ generation.toInt < 2 ^ 63 - 1) : next.toInt = generation.toInt + 1 := by
  simp only [addOne, bind_ok, ensure_ok, pure_ok] at added
  obtain ⟨_, below, rfl⟩ := added
  have bound := generation.toInt_lt
  have low := generation.le_toInt
  have small : generation.toInt < 2 ^ 63 - 1 := by
    rcases room with checked | small
    · have other : generation.toInt ≠ Int64.maxValue.toInt := fun same => below ⟨checked, Int64.toInt_inj.mp same⟩
      rw [Int64.toInt_maxValue] at other
      omega
    · exact small
  rw [Int64.toInt_add, Int64.toInt_one, Int.bmod_eq_of_le] <;> omega

-- A generation as a count: a key without a record is at zero.
def TrackingDb.level (db : TrackingDb) (key : TrackingKey) : Int := ((db.generation key).map Int64.toInt).getD 0

def Settled (count : Nat) (db : TrackingDb) : Prop :=
  ∀ (key : TrackingKey) (row : TrackingRow), db.namespaceTracking[key]? = some row →
    1 ≤ row.generation.toInt ∧ row.generation.toInt ≤ count

theorem settled_level (count : Nat) (db : TrackingDb) (settled : Settled count db) (key : TrackingKey) :
    0 ≤ db.level key ∧ db.level key ≤ count := by
  unfold TrackingDb.level TrackingDb.generation
  cases stored : db.namespaceTracking[key]? with
  | none => exact ⟨Int.le_refl 0, Int.natCast_nonneg count⟩
  | some row =>
      obtain ⟨low, high⟩ := settled key row stored
      exact ⟨Int.le_trans Int.one_nonneg low, high⟩

theorem level_get (db : TrackingDb) (key : TrackingKey) : ((db.generation key).getD 0).toInt = db.level key := by
  unfold TrackingDb.level
  cases db.generation key with
  | none => rfl
  | some generation => rfl

-- A head was set: the row has it, and the generation is the next one.
def Installs (call : Call) (key : TrackingKey) (before : TrackingDb) (rest : Access Reply) (after : TrackingDb) : Prop :=
  ∃ expected head row, call.update = some (key, expected, head) ∧ rest = .ret (.record (row.record key)) ∧
    before.generation key = expected.map UInt64.toInt64 ∧ after.namespaceTracking[key]? = some row ∧ row.integratedHead = head ∧
    row.generation.toInt = before.level key + 1

section Effects

variable {checks : Bool} {call : Call} {before after : TrackingDb} {rest : Access Reply} {count : Nat}
    (settled : Settled count before)
  (room : checks = true ∨ count + 1 < 2 ^ 63)

include settled room

theorem installed_next (key : TrackingKey) (row : TrackingRow)
    (next : addOne checks ((before.generation key).getD 0) = .ok row.generation) :
    row.generation.toInt = before.level key + 1 := by
  rw [← level_get]
  apply add_one_next checks _ _ next
  rcases room with checked | few
  · exact .inl checked
  · have bound := (settled_level count before settled key).2
    rw [level_get]
    exact .inr (by omega)

theorem effect_settled (effect : Effect checks call before rest after) : Settled (count + 1) after := by
  have grown : ∀ (key : TrackingKey) (row : TrackingRow), before.namespaceTracking[key]? = some row →
      1 ≤ row.generation.toInt ∧ row.generation.toInt ≤ ((count + 1 : Nat) : Int) := by
    intro key row stored
    obtain ⟨low, high⟩ := settled key row stored
    omega
  intro other found stored
  cases effect with
  | refused error => exact grown other found stored
  | replayed => exact grown other found stored
  | quiet _ _ _ kept => exact grown other found (kept ▸ stored)
  | installed key expected head asked current row named next after inserted =>
      rw [inserted, Keyed.lookup_insert] at stored
      split at stored
      · cases stored
        have level := installed_next settled room key found next
        have bounds := settled_level count before settled key
        omega
      · exact grown other found stored
  | reconciled key asked epochs old row known same rest after inserted =>
      rw [inserted, Keyed.lookup_insert] at stored
      split at stored
      · cases stored
        rw [same]
        exact grown key old known
      · exact grown other found stored

theorem effect_generation (effect : Effect checks call before rest after) (key : TrackingKey) :
    after.generation key = before.generation key ∨ Installs call key before rest after := by
  cases effect with
  | refused error => exact .inl rfl
  | replayed => exact .inl rfl
  | quiet _ _ _ kept => exact .inl (by rw [TrackingDb.generation, kept, TrackingDb.generation])
  | installed own expected head asked current row named next after inserted =>
      by_cases same : key = own
      · subst same
        refine .inr ⟨expected, head, row, asked, rfl, current, ?_, named, installed_next settled room key row next⟩
        rw [inserted, Keyed.lookup_insert, if_pos rfl]
      · exact .inl (by rw [TrackingDb.generation, inserted, Keyed.lookup_insert, if_neg same, TrackingDb.generation])
  | reconciled own asked epochs old row known same rest after inserted =>
      refine .inl ?_
      rw [TrackingDb.generation, inserted, Keyed.lookup_insert, TrackingDb.generation]
      split
      · next here => rw [here, known, Option.map_some, Option.map_some, same]
      · rfl

theorem effect_level (effect : Effect checks call before rest after) (key : TrackingKey) : before.level key ≤ after.level key := by
  rcases effect_generation settled room effect key with same | ⟨_, _, row, _, _, _, stored, _, next⟩
  · rw [TrackingDb.level, TrackingDb.level, same]
  · have here : after.level key = row.generation.toInt := by
      rw [TrackingDb.level, TrackingDb.generation, stored, Option.map_some, Option.map_some, Option.getD_some]
    omega

end Effects

def Started (checks : Bool) (events : List (Event TrackingDb String Reply Call)) (last : World TrackingDb String Reply Call) : Prop :=
  Schedule.Run (Call.prog checks) ⟨TrackingDb.initialized, []⟩ events last

section Runs

variable {checks : Bool} {events : List (Event TrackingDb String Reply Call)} {last : World TrackingDb String Reply Call}

theorem acted_fits (run : Started checks events last) {call : Call} {before after : TrackingDb} {rest : Access Reply}
    (member : .acted call before rest after ∈ events) : ∃ taken, After (call.prog checks) (taken ++ [(before, after)]) rest :=
  run_fits _ _ _ run (List.forall_mem_nil _) _ member

-- Every generation is at most the number of events so far.
theorem world_settled (world : World TrackingDb String Reply Call) (count : Nat) (settled : Settled count world.state)
    (room : checks = true ∨ count + events.length < 2 ^ 63)
    (each : ∀ call before rest after, .acted call before rest after ∈ events → Effect checks call before rest after)
    (run : Schedule.Run (Call.prog checks) world events last) : Settled (count + events.length) last.state := by
  induction run generalizing count with
  | nil world => exact settled
  | cons world mid last event events first rest ih =>
      have between := step_between world mid event first
      rw [List.length_cons] at room ⊢
      have next : Settled (count + 1) mid.state := by
        cases event with
        | acted call before left after =>
            obtain ⟨begins, ends⟩ := between
            rw [begins] at settled
            rw [ends]
            exact effect_settled settled (room.imp_right fun few => by omega) (each call before left after List.mem_cons_self)
        | began | returned | failed =>
            have same : mid.state = world.state := between
            intro key row stored
            obtain ⟨low, high⟩ := settled key row (same ▸ stored)
            omega
      have later := ih (count + 1) next (room.imp_right fun few => by omega) fun call before rest after member =>
        each call before rest after (List.mem_cons_of_mem _ member)
      rwa [show count + (events.length + 1) = count + 1 + events.length by omega]

theorem acted_settled (run : Started checks events last) (room : checks = true ∨ events.length < 2 ^ 63) {call : Call}
    {before after : TrackingDb} {rest : Access Reply} (member : .acted call before rest after ∈ events) :
    Effect checks call before rest after ∧ ∃ count, Settled count before ∧ (checks = true ∨ count + 1 < 2 ^ 63) := by
  have each : ∀ call before rest after, .acted call before rest after ∈ events → Effect checks call before rest after := by
    intro call before rest after inside
    obtain ⟨taken, left⟩ := acted_fits run inside
    exact acted_effect call before after left
  refine ⟨each _ _ _ _ member, ?_⟩
  obtain ⟨first, later, rfl⟩ := List.append_of_mem member
  rw [List.length_append, List.length_cons] at room
  obtain ⟨one, other, begins, same, _, _⟩ := run_acted _ _ _ _ _ _ _ _ run
  have settled := world_settled ⟨TrackingDb.initialized, []⟩ 0 (fun key row stored => ?_) (room.imp_right fun few => by omega)
    (fun call before rest after inside => each call before rest after (List.mem_append_left _ inside)) begins
  · rw [same] at settled
    exact ⟨_, settled, room.imp_right fun few => by omega⟩
  · rw [TrackingDb.initialized, Std.ExtTreeMap.getElem?_empty] at stored
    cases stored

end Runs

end SessionSync.Tracking
