import SessionSync.Lib.Checked
import SessionSync.Rollout.SessionMeta

set_option autoImplicit false

namespace SessionSync.Workspace

open SessionSync.Core Checked Rollout

-- What a program makes of one field of an object, if it is there, and what it notes of that.
structure FieldStep (ν : Type) where
  key : String
  run : Value → Except String (Option Value × ν)

def alterField (key : String) : Option Value → Fields → Fields
  | none, fields => removeField key fields
  | some value, fields => insertField key value fields

variable {ν : Type}

def FieldStep.outcome (step : FieldStep ν) : Option Value → Except String (Option Value × List ν)
  | none => .ok (none, [])
  | some value => do
      let (changed, note) ← step.run value
      return (changed, [note])

def FieldStep.apply (step : FieldStep ν) (fields : Fields) : Except String (Fields × List ν) := do
  let (changed, notes) ← step.outcome (fieldOf fields step.key)
  return (alterField step.key changed fields, notes)

def runSteps : List (FieldStep ν) → Fields → Except String (Fields × List ν)
  | [], fields => .ok (fields, [])
  | step :: rest, fields => do
      let (fields, notes) ← step.apply fields
      let (fields, others) ← runSteps rest fields
      return (fields, notes ++ others)

theorem field_remove (key name : String) (fields : Fields) :
    fieldOf (removeField key fields) name = if key = name then none else fieldOf fields name := by
  have filtered := field_filter (fun other => decide (other ≠ key)) fields name
  by_cases same : key = name
  · rw [if_pos same, removeField, filtered, if_neg]
    simp [same]
  · rw [if_neg same, removeField, filtered, if_pos]
    simpa using fun equal : name = key => same equal.symm

theorem field_alter (key name : String) (changed : Option Value) (fields : Fields) :
    fieldOf (alterField key changed fields) name = if key = name then changed else fieldOf fields name := by
  cases changed with
  | none => exact field_remove key name fields
  | some value => exact field_insert key name value fields

theorem alter_sorted (key : String) (changed : Option Value) (fields : Fields) (sorted : KeysSorted fields) :
    KeysSorted (alterField key changed fields) := by
  cases changed with
  | none => exact filter_sorted _ fields sorted
  | some value => exact insert_sorted key value fields sorted

-- A field that is given what it holds leaves the object as it was.
theorem alter_same (key : String) (fields : Fields) (sorted : KeysSorted fields) :
    alterField key (fieldOf fields key) fields = fields := by
  refine fields_ext _ _ (alter_sorted key _ fields sorted) sorted fun name => ?_
  rw [field_alter]
  by_cases same : key = name
  · rw [if_pos same, same]
  · rw [if_neg same]

theorem apply_ok (step : FieldStep ν) (fields after : Fields) (notes : List ν) :
    step.apply fields = .ok (after, notes) ↔
      ∃ changed, step.outcome (fieldOf fields step.key) = .ok (changed, notes) ∧ after = alterField step.key changed fields := by
  simp only [FieldStep.apply, bind_ok, pure_ok, Prod.exists, Prod.mk.injEq]
  constructor
  · intro applied
    obtain ⟨changed, own, outcome, rfl, rfl⟩ := applied
    exact ⟨changed, outcome, rfl⟩
  · intro stepped
    obtain ⟨changed, outcome, same⟩ := stepped
    exact ⟨changed, notes, outcome, same.symm, rfl⟩

theorem run_steps_cons (step : FieldStep ν) (rest : List (FieldStep ν)) (fields after : Fields) (notes : List ν) :
    runSteps (step :: rest) fields = .ok (after, notes) ↔ ∃ mid own others, step.apply fields = .ok (mid, own) ∧
      runSteps rest mid = .ok (after, others) ∧ notes = own ++ others := by
  simp only [runSteps, bind_ok, pure_ok, Prod.exists, Prod.mk.injEq]
  constructor
  · intro ran
    obtain ⟨mid, own, first, last, others, later, rfl, rfl⟩ := ran
    exact ⟨mid, own, others, first, later, rfl⟩
  · intro ran
    obtain ⟨mid, own, others, first, later, same⟩ := ran
    exact ⟨mid, own, first, after, others, later, rfl, same.symm⟩

structure Stepped (steps : List (FieldStep ν)) (fields after : Fields) (notes : List ν) : Prop where
  sorted : KeysSorted after
  others : ∀ name ∉ steps.map FieldStep.key, fieldOf after name = fieldOf fields name
  each : ∀ step ∈ steps, ∃ own, step.outcome (fieldOf fields step.key) = .ok (fieldOf after step.key, own) ∧ own ⊆ notes
  noted : ∀ note ∈ notes, ∃ step ∈ steps, ∃ own, step.outcome (fieldOf fields step.key) =
    .ok (fieldOf after step.key, own) ∧ note ∈ own

-- Steps at different fields do not meet: each finds its field as it was at first, and
-- leaves it as it is at last.
theorem steps_run (steps : List (FieldStep ν)) (apart : (steps.map FieldStep.key).Nodup) (fields after : Fields) (notes : List ν)
    (sorted : KeysSorted fields) (ran : runSteps steps fields = .ok (after, notes)) : Stepped steps fields after notes := by
  induction steps generalizing fields notes with
  | nil =>
      cases ran
      exact ⟨sorted, fun _ _ => rfl, nofun, nofun⟩
  | cons step rest ih =>
      obtain ⟨new, distinct⟩ := List.nodup_cons.mp apart
      obtain ⟨mid, own, others, first, later, rfl⟩ := (run_steps_cons step rest fields after notes).mp ran
      obtain ⟨changed, outcome, rfl⟩ := (apply_ok step fields mid own).mp first
      have tail := ih distinct _ others (alter_sorted step.key changed fields sorted) later
      have here : fieldOf after step.key = changed := by rw [tail.others step.key new, field_alter, if_pos rfl]
      have started : ∀ other ∈ rest, fieldOf (alterField step.key changed fields) other.key = fieldOf fields other.key := by
        intro other member
        rw [field_alter, if_neg]
        intro same
        exact new (same ▸ List.mem_map_of_mem member)
      refine ⟨tail.sorted, fun name outside => ?_, fun other member => ?_, fun note member => ?_⟩
      · rw [List.map_cons, List.mem_cons, not_or] at outside
        rw [tail.others name outside.2, field_alter, if_neg (Ne.symm outside.1)]
      · rcases List.mem_cons.mp member with rfl | member
        · exact ⟨own, here ▸ outcome, List.subset_append_left own others⟩
        · obtain ⟨its, result, within⟩ := tail.each other member
          rw [started other member] at result
          exact ⟨its, result, List.Subset.trans within (List.subset_append_right own others)⟩
      · rcases List.mem_append.mp member with mine | theirs
        · exact ⟨step, List.mem_cons_self, own, here ▸ outcome, mine⟩
        · obtain ⟨other, among, its, result, held⟩ := tail.noted note theirs
          rw [started other among] at result
          exact ⟨other, List.mem_cons_of_mem _ among, its, result, held⟩

-- Where every step leaves its field as it is, so does the run.
theorem steps_idle (steps : List (FieldStep ν)) (quiet : ν → Prop) (fields : Fields) (sorted : KeysSorted fields)
    (idle : ∀ step ∈ steps, ∃ own, step.outcome (fieldOf fields step.key) = .ok (fieldOf fields step.key, own) ∧
      ∀ note ∈ own, quiet note) :
    ∃ notes, runSteps steps fields = .ok (fields, notes) ∧ ∀ note ∈ notes, quiet note := by
  induction steps with
  | nil => exact ⟨[], rfl, nofun⟩
  | cons step rest ih =>
      obtain ⟨first, tail⟩ := List.forall_mem_cons.mp idle
      obtain ⟨own, outcome, silent⟩ := first
      obtain ⟨others, later, calm⟩ := ih tail
      refine ⟨own ++ others, (run_steps_cons step rest fields fields _).mpr ⟨fields, own, others, ?_, later, rfl⟩,
        fun note member => ?_⟩
      · exact (apply_ok step fields fields own).mpr ⟨_, outcome, (alter_same step.key fields sorted).symm⟩
      · exact (List.mem_append.mp member).elim (silent note) (calm note)

-- A run succeeds when each step does at what its field holds at first.
theorem steps_succeed (steps : List (FieldStep ν)) (apart : (steps.map FieldStep.key).Nodup) (fields : Fields) :
    (∃ outcome, runSteps steps fields = .ok outcome) ↔
      ∀ step ∈ steps, ∃ outcome, step.outcome (fieldOf fields step.key) = .ok outcome := by
  induction steps generalizing fields with
  | nil => exact iff_of_true ⟨(fields, []), rfl⟩ nofun
  | cons step rest ih =>
      obtain ⟨new, distinct⟩ := List.nodup_cons.mp apart
      have started : ∀ changed, ∀ other ∈ rest, fieldOf (alterField step.key changed fields) other.key =
        fieldOf fields other.key := by
        intro changed other member
        rw [field_alter, if_neg]
        intro same
        exact new (same ▸ List.mem_map_of_mem member)
      rw [List.forall_mem_cons]
      constructor
      · intro ran
        obtain ⟨⟨after, notes⟩, ran⟩ := ran
        obtain ⟨mid, own, others, first, later, _⟩ := (run_steps_cons step rest fields after notes).mp ran
        obtain ⟨changed, outcome, rfl⟩ := (apply_ok step fields mid own).mp first
        have tail := (ih distinct _).mp ⟨_, later⟩
        refine ⟨⟨_, outcome⟩, fun other member => ?_⟩
        rw [← started changed other member]
        exact tail other member
      · intro succeed
        obtain ⟨⟨⟨changed, own⟩, outcome⟩, tail⟩ := succeed
        have later := (ih distinct (alterField step.key changed fields)).mpr fun other member =>
          started changed other member ▸ tail other member
        obtain ⟨⟨after, others⟩, later⟩ := later
        exact ⟨_, (run_steps_cons step rest fields after _).mpr
          ⟨_, own, others, (apply_ok step fields _ own).mpr ⟨changed, outcome, rfl⟩, later, rfl⟩⟩

end SessionSync.Workspace
