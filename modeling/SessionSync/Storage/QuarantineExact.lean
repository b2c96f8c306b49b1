import SessionSync.Storage.Quarantine
import SessionSync.Core.Sha256

set_option autoImplicit false

namespace SessionSync.Storage

open SessionSync.Core Checked
open Server (StorageObjectKind StorageObjectRef ObjectKey)

variable {ρ : Type} (operation : String)

def quarantinePlace (object : StorageObjectRef) : QuarantinePath := (operation, object.kind, String.ofList (digits object.sha256))

def moveOne (repository : GcRepository ρ) (object : StorageObjectRef) : GcRepository ρ :=
  match repository.stored[objectPlace object]? with
  | none => repository
  | some bytes => { repository with stored := repository.stored.erase (objectPlace object),
                                    quarantine := repository.quarantine.insert (quarantinePlace operation object) bytes }

theorem same_place_iff (left right : StorageObjectRef) :
    objectPlace left = objectPlace right ↔ quarantinePlace operation left = quarantinePlace operation right := by
  simp only [objectPlace, quarantinePlace, Prod.mk.injEq, true_and, String.ofList_inj]
  refine and_congr_right fun _ => ⟨fun same => ?_, fun same => by rw [same]; exact ⟨rfl, rfl⟩⟩
  rw [← List.take_append_drop 2 (digits left.sha256), ← List.take_append_drop 2 (digits right.sha256), same.1, same.2]

theorem moved_stored (objects : List StorageObjectRef) (repository : GcRepository ρ) (path : StoredPath) :
    (objects.foldl (moveOne operation) repository).stored[path]? =
      if path ∈ objects.map objectPlace then none else repository.stored[path]? := by
  induction objects generalizing repository with
  | nil => simp
  | cons object rest ih =>
      rw [List.foldl_cons, ih, List.map_cons, moveOne]
      by_cases later : path ∈ rest.map objectPlace
      · rw [if_pos later, if_pos (List.mem_cons_of_mem _ later)]
      · rw [if_neg later]
        by_cases same : path = objectPlace object
        · rw [if_pos (same ▸ List.mem_cons_self)]
          cases held : repository.stored[objectPlace object]? with
          | none => exact same ▸ held
          | some bytes =>
              rw [Keyed.lookup_erase, if_pos same]
        · rw [if_neg (by simp [same, later])]
          cases repository.stored[objectPlace object]? with
          | none => rfl
          | some bytes =>
              rw [Keyed.lookup_erase, if_neg same]

theorem moved_quarantine (objects : List StorageObjectRef) (repository : GcRepository ρ) (object : StorageObjectRef) :
    (objects.foldl (moveOne operation) repository).quarantine[quarantinePlace operation object]? =
      if objectPlace object ∈ objects.map objectPlace then
        (repository.stored[objectPlace object]?).or repository.quarantine[quarantinePlace operation object]?
      else repository.quarantine[quarantinePlace operation object]? := by
  induction objects generalizing repository with
  | nil => simp
  | cons head rest ih =>
      rw [List.foldl_cons, ih, moveOne, List.map_cons]
      by_cases same : objectPlace head = objectPlace object
      · have place := (same_place_iff operation head object).mp same
        rw [if_pos (c := objectPlace object ∈ _ :: _) (same ▸ List.mem_cons_self), same, place]
        cases held : repository.stored[objectPlace object]? with
        | none => simp [held]
        | some bytes => simp
      · have place : quarantinePlace operation head ≠ quarantinePlace operation object := fun equal =>
          same ((same_place_iff operation head object).mpr equal)
        have later : objectPlace object ∈ objectPlace head :: rest.map objectPlace ↔ objectPlace object ∈ rest.map objectPlace := by
          simp [Ne.symm same]
        rw [if_congr later rfl rfl]
        cases repository.stored[objectPlace head]? with
        | none => rfl
        | some bytes => simp only [Keyed.lookup_erase, Keyed.lookup_insert, if_neg (Ne.symm same), if_neg (Ne.symm place)]

theorem moved_others (objects : List StorageObjectRef) (repository : GcRepository ρ) (place : QuarantinePath)
    (other : place ∉ objects.map (quarantinePlace operation)) :
    (objects.foldl (moveOne operation) repository).quarantine[place]? = repository.quarantine[place]? := by
  induction objects generalizing repository with
  | nil => rfl
  | cons head rest ih =>
      rw [List.map_cons, List.mem_cons, not_or] at other
      rw [List.foldl_cons, ih _ other.2, moveOne]
      cases repository.stored[objectPlace head]? with
      | none => rfl
      | some bytes => simp only [Keyed.lookup_insert, if_neg other.1]

def Placed (repository : GcRepository ρ) (object : StorageObjectRef) : Prop :=
  ∃ bytes, repository.stored[objectPlace object]? = some bytes

theorem moved_nothing (objects : List StorageObjectRef) (repository : GcRepository ρ)
    (absent : ∀ object ∈ objects, ¬ Placed repository object) :
    objects.foldl (moveOne operation) repository = repository := by
  induction objects with
  | nil => rfl
  | cons head rest ih =>
      obtain ⟨first, others⟩ := List.forall_mem_cons.mp absent
      have none : repository.stored[objectPlace head]? = none :=
        Option.eq_none_iff_forall_ne_some.mpr fun bytes held => first ⟨bytes, held⟩
      rw [List.foldl_cons, moveOne, none]
      exact ih others

-- What the loop does with the objects before the first stale one.
theorem move_objects (authoritative earlier rest : List StorageObjectRef) (repository : GcRepository ρ)
    (current : ∀ object ∈ earlier, object ∈ authoritative) (valid : ∀ object ∈ authoritative, validSha256 object.sha256 = true) :
    moveObjects operation authoritative (earlier ++ rest) repository =
      moveObjects operation authoritative rest (earlier.foldl (moveOne operation) repository) := by
  induction earlier generalizing repository with
  | nil => rfl
  | cons head others ih =>
      obtain ⟨first, current⟩ := List.forall_mem_cons.mp current
      rw [List.cons_append, moveObjects, if_neg (not_not.mpr first), if_neg (by simp [valid head first]), List.foldl_cons, moveOne]
      cases repository.stored[objectPlace head]? with
      | none => exact ih _ current
      | some bytes => exact ih _ current

theorem move_stale (authoritative rest : List StorageObjectRef) (stale : StorageObjectRef) (repository : GcRepository ρ)
    (outdated : stale ∉ authoritative) :
    moveObjects operation authoritative (stale :: rest) repository = (.error staleMessage, repository) := by
  rw [moveObjects, if_pos outdated]

theorem first_stale (authoritative objects : List StorageObjectRef) :
    (∀ object ∈ objects, object ∈ authoritative) ∨ ∃ earlier stale later, objects = earlier ++ stale :: later ∧
      (∀ object ∈ earlier, object ∈ authoritative) ∧ stale ∉ authoritative := by
  induction objects with
  | nil => exact .inl (List.forall_mem_nil _)
  | cons head rest ih =>
      by_cases current : head ∈ authoritative
      · rcases ih with all | ⟨earlier, stale, later, rfl, before, outdated⟩
        · exact .inl (List.forall_mem_cons.mpr ⟨current, all⟩)
        · exact .inr ⟨head :: earlier, stale, later, rfl, List.forall_mem_cons.mpr ⟨current, before⟩, outdated⟩
      · exact .inr ⟨[], head, rest, rfl, List.forall_mem_nil _, current⟩

section Format4

theorem hex_byte (c : Char) (hex : isLowerHex c = true) : c.utf8Size = 1 := by
  rw [Char.utf8Size_eq_one_iff]
  simp only [isLowerHex, Bool.or_eq_true, Bool.and_eq_true, decide_eq_true_eq] at hex
  rcases hex with ⟨_, digit⟩ | ⟨_, letter⟩
  · exact UInt32.le_trans digit (by decide)
  · exact UInt32.le_trans letter (by decide)

theorem hex_bytes (letters : List Char) (hex : ∀ c ∈ letters, isLowerHex c = true) :
    (String.ofList letters).utf8ByteSize = letters.length := by
  induction letters with
  | nil => rfl
  | cons c rest ih =>
      obtain ⟨first, others⟩ := List.forall_mem_cons.mp hex
      rw [String.ofList_cons, String.utf8ByteSize_append, String.utf8ByteSize_singleton, hex_byte c first, ih others,
        List.length_cons, Nat.add_comm]

-- A digest in a directory whose name has two bytes is where its name says.
theorem short_directory_place (path : StoredPath) (bytes : Bytes) (short : path.2.1.utf8ByteSize = 2)
    (valid : validSha256 (storedObject path bytes).sha256 = true) : objectPlace (storedObject path bytes) = path := by
  obtain ⟨kind, directory, name⟩ := path
  have text : (storedObject (kind, directory, name) bytes).sha256.toList = "sha256:".toList ++ (directory.toList ++ name.toList) := by
    simp [storedObject]
  have cut : digits (storedObject (kind, directory, name) bytes).sha256 = directory.toList ++ name.toList := by
    rw [digits, text]
    rfl
  have hex : ∀ c ∈ directory.toList, isLowerHex c = true := by
    rw [validSha256, text] at valid
    simp only [List.splitAt_eq] at valid
    simp only [Bool.and_eq_true, List.all_eq_true] at valid
    exact fun c member => valid.2 c (by simp [member])
  have two : directory.toList.length = 2 := by
    have size := hex_bytes directory.toList hex
    rw [String.ofList_toList] at size
    exact size.symm.trans short
  rw [objectPlace, cut, List.take_left' two, List.drop_left' two, String.ofList_toList, String.ofList_toList]
  rfl

end Format4

section Plan

variable (code : GcCode ρ) (repository : GcRepository ρ) (plan : GcPlan)

theorem enumerated_from (format4 : Bool) (entries : List (StoredPath × Bytes)) (objects : List StorageObjectRef)
    (run : enumerateObjects format4 entries = .ok objects) (object : StorageObjectRef) (member : object ∈ objects) :
    ∃ entry ∈ entries, object = storedObject entry.1 entry.2 ∧ checkStored format4 entry.1 object = .ok () := by
  induction entries generalizing objects with
  | nil =>
      cases run
      cases member
  | cons entry rest ih =>
      simp only [enumerateObjects, bind_ok, pure_ok] at run
      obtain ⟨_, checked, others, later, rfl⟩ := run
      rcases List.mem_cons.mp member with rfl | member
      · exact ⟨entry, List.mem_cons_self, rfl, checked⟩
      · obtain ⟨found, inside, facts⟩ := ih others later member
        exact ⟨found, List.mem_cons_of_mem _ inside, facts⟩

theorem checked_valid (format4 : Bool) (path : StoredPath) (object : StorageObjectRef)
    (checked : checkStored format4 path object = .ok ()) :
    validSha256 object.sha256 = true := by
  cases format4 with
  | true =>
      simp only [checkStored, if_true, bind_ok, ensure_ok, validateSha256V4] at checked
      obtain ⟨_, _, valid⟩ := checked
      exact valid
  | false =>
      simp only [checkStored, Bool.false_eq_true, if_false, validateStorageObjectRef, bind_ok, ensure_ok] at checked
      obtain ⟨_, valid, _⟩ := checked
      exact valid

theorem planned_from (authoritative : GcPlan) (run : planLocalGc code repository = .ok authoritative) (object : StorageObjectRef)
    (member : object ∈ authoritative.unreachableObjects) : ∃ entry ∈ repository.stored.toList,
      object = storedObject entry.1 entry.2 ∧ checkStored repository.format4 entry.1 object = .ok () := by
  simp only [planLocalGc, bind_ok, pure_ok] at run
  obtain ⟨reachable, _, objects, enumerated, _, _, rfl⟩ := run
  rw [List.mem_insertionSort] at member
  exact enumerated_from _ _ _ enumerated object (List.mem_filter.mp member).1

theorem planned_valid (authoritative : GcPlan) (run : planLocalGc code repository = .ok authoritative) :
    ∀ object ∈ authoritative.unreachableObjects, validSha256 object.sha256 = true := by
  intro object member
  obtain ⟨entry, _, _, checked⟩ := planned_from code repository authoritative run object member
  exact checked_valid _ _ _ checked

-- In the newer format every candidate is in its place.
theorem format4_placed (format4 : repository.format4 = true) (authoritative : GcPlan)
    (run : planLocalGc code repository = .ok authoritative) (object : StorageObjectRef)
    (member : object ∈ authoritative.unreachableObjects) : Placed repository object := by
  obtain ⟨⟨path, bytes⟩, listed, rfl, checked⟩ := planned_from code repository authoritative run object member
  have valid := checked_valid _ _ _ checked
  rw [format4] at checked
  simp only [checkStored, if_true, bind_ok, ensure_ok, validateSha256V4] at checked
  obtain ⟨_, short, _⟩ := checked
  exact ⟨bytes, by rw [short_directory_place path bytes short valid]; exact Std.ExtTreeMap.mem_toList_iff_getElem?_eq_some.mp listed⟩

-- The repository once the plan is written to the journal.
def journaled : GcRepository ρ :=
  { repository with journal := repository.journal.insert ("gc-" ++ operation ++ ".json") (canonicalJson code.lib plan.toValue) }

-- Exactly the planned objects are in the quarantine.
structure Moved (planned : List StorageObjectRef) (before after : GcRepository ρ) : Prop where
  moved : ∀ object ∈ planned, ∃ bytes, before.stored[objectPlace object]? = some bytes ∧
    after.stored[objectPlace object]? = none ∧ after.quarantine[quarantinePlace operation object]? = some bytes
  kept : ∀ path, path ∉ planned.map objectPlace → after.stored[path]? = before.stored[path]?
  others : ∀ place, place ∉ planned.map (quarantinePlace operation) → after.quarantine[place]? = before.quarantine[place]?

def Exact : Prop :=
  ((quarantineLocalGcPlan code operation repository plan).1 = .error staleMessage →
    (quarantineLocalGcPlan code operation repository plan).2.stored = repository.stored ∧
      (quarantineLocalGcPlan code operation repository plan).2.quarantine = repository.quarantine) ∧
  ((quarantineLocalGcPlan code operation repository plan).1 = .ok () →
    Moved operation plan.unreachableObjects repository (quarantineLocalGcPlan code operation repository plan).2)

-- Before the first planned object that is not a candidate now no planned one is in its
-- place, and where there is no such object all are.
def Careful : Prop :=
  ∀ authoritative, planLocalGc code (journaled operation code repository plan) = .ok authoritative →
    (∀ earlier stale later, plan.unreachableObjects = earlier ++ stale :: later →
      (∀ object ∈ earlier, object ∈ authoritative.unreachableObjects) → stale ∉ authoritative.unreachableObjects →
        ∀ object ∈ earlier, ¬ Placed repository object) ∧
    ((∀ object ∈ plan.unreachableObjects, object ∈ authoritative.unreachableObjects) →
      ∀ object ∈ plan.unreachableObjects, Placed repository object)

theorem careful_format4 (format4 : repository.format4 = true) : Careful operation code repository plan ↔
    ∀ authoritative, planLocalGc code (journaled operation code repository plan) = .ok authoritative →
      ∀ earlier stale later, plan.unreachableObjects = earlier ++ stale :: later →
        (∀ object ∈ earlier, object ∈ authoritative.unreachableObjects) → stale ∉ authoritative.unreachableObjects →
          earlier = [] := by
  have placed : ∀ authoritative, planLocalGc code (journaled operation code repository plan) = .ok authoritative →
      ∀ object ∈ authoritative.unreachableObjects, Placed repository object :=
    fun authoritative run => format4_placed code (journaled operation code repository plan) format4 authoritative run
  constructor
  · intro careful authoritative run earlier stale later split current outdated
    refine List.eq_nil_iff_forall_not_mem.mpr fun object member => ?_
    exact (careful authoritative run).1 earlier stale later split current outdated object member
      (placed authoritative run object (current object member))
  · intro first authoritative run
    refine ⟨fun earlier stale later split current outdated object member => ?_, fun current object member =>
      placed authoritative run object (current object member)⟩
    rw [first authoritative run earlier stale later split current outdated] at member
    cases member

theorem quarantine_run (authoritative : GcPlan)
    (planned : planLocalGc code (journaled operation code repository plan) = .ok authoritative)
    (earlier rest : List StorageObjectRef) (split : plan.unreachableObjects = earlier ++ rest)
    (current : ∀ object ∈ earlier, object ∈ authoritative.unreachableObjects) :
    quarantineLocalGcPlan code operation repository plan =
      moveObjects operation authoritative.unreachableObjects rest
        (earlier.foldl (moveOne operation) (journaled operation code repository plan)) := by
  rw [← move_objects operation _ _ _ _ current (planned_valid code _ _ planned), ← split]
  unfold quarantineLocalGcPlan
  rw [journaled] at planned
  simp only [planned]
  rfl

theorem moved_all (objects : List StorageObjectRef) (placed : ∀ object ∈ objects, Placed repository object) :
    Moved operation objects repository (objects.foldl (moveOne operation) repository) := by
  refine ⟨fun object member => ?_, fun path other => ?_, fun place other => moved_others operation _ _ _ other⟩
  · obtain ⟨bytes, held⟩ := placed object member
    have inside : objectPlace object ∈ objects.map objectPlace := List.mem_map.mpr ⟨object, member, rfl⟩
    refine ⟨bytes, held, ?_, ?_⟩
    · rw [moved_stored, if_pos inside]
    · rw [moved_quarantine, if_pos inside, held, Option.some_or]
  · rw [moved_stored, if_neg other]

theorem exact_careful (exact : Exact operation code repository plan) : Careful operation code repository plan := by
  obtain ⟨harmless, moves⟩ := exact
  intro authoritative planned
  refine ⟨fun earlier stale later split current outdated object member => ?_, fun current object member => ?_⟩
  · have run := quarantine_run operation code repository plan authoritative planned earlier (stale :: later) split current
    rw [move_stale operation _ _ _ _ outdated] at run
    have untouched := (harmless (by rw [run])).1
    rw [run] at untouched
    rintro ⟨bytes, held⟩
    have gone := moved_stored operation earlier (journaled operation code repository plan) (objectPlace object)
    rw [untouched, if_pos (List.mem_map.mpr ⟨object, member, rfl⟩), held] at gone
    cases gone
  · have run := quarantine_run operation code repository plan authoritative planned plan.unreachableObjects []
      (List.append_nil _).symm current
    obtain ⟨bytes, held, _⟩ := (moves (by rw [run]; rfl)).moved object member
    exact ⟨bytes, held⟩

theorem careful_exact (careful : Careful operation code repository plan) : Exact operation code repository plan := by
  cases planned : planLocalGc code (journaled operation code repository plan) with
  | error message =>
      have run : quarantineLocalGcPlan code operation repository plan =
        (.error message, journaled operation code repository plan) := by
        unfold quarantineLocalGcPlan
        rw [journaled] at planned
        simp only [planned]
        rfl
      rw [Exact, run]
      exact ⟨fun _ => ⟨rfl, rfl⟩, fun impossible => by cases impossible⟩
  | ok authoritative =>
      obtain ⟨stalePart, currentPart⟩ := careful authoritative planned
      rcases first_stale authoritative.unreachableObjects plan.unreachableObjects with current | ⟨earlier, stale, later, split,
        current, outdated⟩
      · have run := quarantine_run operation code repository plan authoritative planned plan.unreachableObjects []
          (List.append_nil _).symm current
        rw [moveObjects] at run
        rw [Exact, run]
        refine ⟨fun impossible => (by cases impossible), fun _ => ?_⟩
        obtain ⟨moved, kept, others⟩ := moved_all operation (journaled operation code repository plan) plan.unreachableObjects
          (currentPart current)
        exact ⟨moved, kept, others⟩
      · have run := quarantine_run operation code repository plan authoritative planned earlier (stale :: later) split current
        rw [move_stale operation _ _ _ _ outdated,
          moved_nothing operation earlier (journaled operation code repository plan)
            (stalePart earlier stale later split current outdated)] at run
        rw [Exact, run]
        exact ⟨fun _ => ⟨rfl, rfl⟩, fun impossible => by cases impossible⟩

theorem quarantine_exact_iff : Exact operation code repository plan ↔ Careful operation code repository plan :=
  ⟨exact_careful operation code repository plan, careful_exact operation code repository plan⟩

end Plan

section Sample

def sampleCode : GcCode Unit := { lib := sampleLib, reachable := fun _ => .ok [], now := "2026-01-01T00:00:00Z" }

def garbage (letter : Char) : StorageObjectRef :=
  { kind := .chunk, sha256 := "sha256:" ++ String.ofList (List.replicate 64 letter), byteLength := 1 }

-- One chunk that nothing reaches.
def sampleRepository : GcRepository Unit :=
  { format4 := true, stored := (∅ : Std.ExtTreeMap StoredPath Bytes).insert (objectPlace (garbage 'a')) [7],
    quarantine := ∅, journal := ∅, others := () }

-- The second chunk was collected since the plan was made.
def samplePlan : GcPlan :=
  { schemaVersion := 4, createdAt := "2026-01-01T00:00:00Z", reachableObjects := 0,
    unreachableObjects := [garbage 'a', garbage 'b'], reclaimableBytes := 2 }

theorem stale_plan_moves : ¬ Exact "op" sampleCode sampleRepository samplePlan := by
  intro exact
  have careful := exact_careful _ _ _ _ exact
  have planned : planLocalGc sampleCode (journaled "op" sampleCode sampleRepository samplePlan) =
      .ok { schemaVersion := 4, createdAt := "2026-01-01T00:00:00Z", reachableObjects := 0, unreachableObjects := [garbage 'a'],
            reclaimableBytes := 1 } := by
    have only : (journaled "op" sampleCode sampleRepository samplePlan).stored.toList = [(objectPlace (garbage 'a'), [7])] :=
      Keyed.single_to_list _ _
    rw [planLocalGc, only]
    decide +kernel
  refine (careful _ planned).1 [garbage 'a'] (garbage 'b') [] rfl (by simp) (by decide +kernel) (garbage 'a')
    (List.mem_singleton_self _) ⟨[7], ?_⟩
  rw [sampleRepository, Keyed.lookup_insert, if_pos rfl]

end Sample

end SessionSync.Storage
