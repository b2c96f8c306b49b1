import SessionSync.Core.Fields

set_option autoImplicit false

namespace SessionSync.Rollout

open SessionSync.Core

-- serde_json::from_slice::<Value>, with the text of its error. It builds a map in
-- key order, whatever the order of the text.
structure Reader where
  parse : Bytes → Except String Value
  formed : ∀ body value, parse body = .ok value → WellFormed value

def get (value : Value) (key : String) : Option Value :=
  match value with
  | .object fields => fieldOf fields key
  | _ => none

def asObject : Value → Option Fields
  | .object fields => some fields
  | _ => none

-- serde_json::Map::insert over a BTreeMap.
def insertField (key : String) (value : Value) : Fields → Fields
  | [] => [(key, value)]
  | (name, old) :: rest =>
      if key < name then (key, value) :: (name, old) :: rest
      else if key = name then (key, value) :: rest
      else (name, old) :: insertField key value rest

def isSessionMeta (value : Value) : Bool := (get value "type").bind Value.asStr = some "session_meta"

def payloadOf (value : Value) : Option Fields := (get value "payload").bind asObject

def replacePayload (value : Value) (payload : Fields) : Value :=
  match value with
  | .object fields => .object (insertField "payload" (.object payload) fields)
  | other => other

-- The two fields of a payload that belong to a machine; a cwd is only ever written
-- into the first record.
def stampPayload (cwd : Option String) (provider : String) (payload : Fields) : Fields :=
  let payload := match cwd with
    | some path => insertField "cwd" (.string path) payload
    | none => payload
  insertField "model_provider" (.string provider) payload

def stamp (cwd : Option String) (provider : String) (value : Value) (payload : Fields) : Value :=
  replacePayload value (stampPayload cwd provider payload)

theorem field_insert (key name : String) (value : Value) (fields : Fields) :
    fieldOf (insertField key value fields) name = if key = name then some value else fieldOf fields name := by
  induction fields with
  | nil => exact field_cons key name value []
  | cons field rest ih =>
      obtain ⟨other, old⟩ := field
      unfold insertField
      by_cases before : key < other
      · rw [if_pos before, field_cons]
      · by_cases same : key = other
        · rw [if_neg before, if_pos same, field_cons, field_cons, ← same]
          by_cases found : key = name
          · rw [if_pos found, if_pos found]
          · rw [if_neg found, if_neg found, if_neg found]
        · rw [if_neg before, if_neg same, field_cons, field_cons, ih]
          by_cases found : other = name
          · have differ : key ≠ name := fun equal => same (equal.trans found.symm)
            rw [if_pos found, if_pos found, if_neg differ]
          · rw [if_neg found, if_neg found]

theorem insert_member (key : String) (value : Value) (fields : Fields) (field : String × Value)
    (member : field ∈ insertField key value fields) : field = (key, value) ∨ field ∈ fields := by
  induction fields with
  | nil => exact Or.inl (List.mem_singleton.mp member)
  | cons head rest ih =>
      obtain ⟨name, old⟩ := head
      unfold insertField at member
      split at member
      · exact List.mem_cons.mp member
      · split at member
        · exact (List.mem_cons.mp member).imp_right (List.mem_cons_of_mem _)
        · rcases List.mem_cons.mp member with same | later
          · exact Or.inr (same ▸ List.mem_cons_self)
          · exact (ih later).imp_right (List.mem_cons_of_mem _)

theorem insert_sorted (key : String) (value : Value) (fields : Fields) (sorted : KeysSorted fields) :
    KeysSorted (insertField key value fields) := by
  induction fields with
  | nil => exact List.pairwise_singleton _ _
  | cons head rest ih =>
      obtain ⟨name, old⟩ := head
      obtain ⟨above, tail⟩ := List.pairwise_cons.mp sorted
      unfold insertField
      by_cases before : key < name
      · rw [if_pos before]
        refine List.pairwise_cons.mpr ⟨fun field member => ?_, sorted⟩
        rcases List.mem_cons.mp member with same | later
        · rw [same]
          exact before
        · exact String.lt_trans before (above field later)
      · rw [if_neg before]
        by_cases same : key = name
        · rw [if_pos same]
          exact List.pairwise_cons.mpr ⟨fun field member => same ▸ above field member, tail⟩
        · rw [if_neg same]
          refine List.pairwise_cons.mpr ⟨fun field member => ?_, ih tail⟩
          rcases insert_member key value rest field member with new | later
          · rw [new]
            exact key_after key name before same
          · exact above field later

theorem insert_formed (key : String) (value : Value) (fields : Fields) (formed : WellFormed value)
    (others : WellFormedFields fields) : WellFormedFields (insertField key value fields) := by
  induction fields with
  | nil => exact ⟨formed, trivial⟩
  | cons head rest ih =>
      obtain ⟨name, old⟩ := head
      unfold insertField
      split
      · exact ⟨formed, others⟩
      · split
        · exact ⟨formed, others.2⟩
        · exact ⟨others.1, ih others.2⟩

theorem insert_twice (key : String) (value old : Value) (fields : Fields) (sorted : KeysSorted fields) :
    insertField key value (insertField key old fields) = insertField key value fields := by
  refine fields_ext _ _ (insert_sorted _ _ _ (insert_sorted _ _ _ sorted)) (insert_sorted _ _ _ sorted) fun name => ?_
  simp only [field_insert]
  split <;> rfl

theorem remove_sorted (key : String) (fields : Fields) (sorted : KeysSorted fields) : KeysSorted (removeField key fields) :=
  sorted.sublist List.filter_sublist

theorem field_remove (key name : String) (fields : Fields) :
    fieldOf (removeField key fields) name = if key = name then none else fieldOf fields name := by
  induction fields with
  | nil => simp [removeField, fieldOf]
  | cons head rest ih =>
      obtain ⟨other, value⟩ := head
      by_cases dropped : other = key
      · have gone : removeField key ((other, value) :: rest) = removeField key rest := by simp [removeField, dropped]
        rw [gone, ih, field_cons]
        by_cases same : key = name
        · rw [if_pos same, if_pos same]
        · have differ : other ≠ name := fun equal => same (dropped.symm.trans equal)
          rw [if_neg same, if_neg same, if_neg differ]
      · have kept : removeField key ((other, value) :: rest) = (other, value) :: removeField key rest := by
          simp [removeField, dropped]
        rw [kept, field_cons, ih, field_cons]
        by_cases found : other = name
        · have differ : key ≠ name := fun equal => dropped (found.trans equal.symm)
          rw [if_pos found, if_pos found, if_neg differ]
        · rw [if_neg found, if_neg found]

theorem stamp_field (cwd : Option String) (provider name : String) (payload : Fields) :
    fieldOf (stampPayload cwd provider payload) name =
      if "model_provider" = name then some (.string provider)
      else if "cwd" = name then (cwd.map Value.string).or (fieldOf payload name)
      else fieldOf payload name := by
  cases cwd with
  | none => simp [stampPayload, field_insert]
  | some path => simp [stampPayload, field_insert]

theorem stamp_sorted (cwd : Option String) (provider : String) (payload : Fields) (sorted : KeysSorted payload) :
    KeysSorted (stampPayload cwd provider payload) := by
  cases cwd with
  | none => exact insert_sorted _ _ _ sorted
  | some path => exact insert_sorted _ _ _ (insert_sorted _ _ _ sorted)

theorem stamp_formed (cwd : Option String) (provider : String) (payload : Fields) (formed : WellFormedFields payload) :
    WellFormedFields (stampPayload cwd provider payload) := by
  cases cwd with
  | none => exact insert_formed _ _ _ trivial formed
  | some path => exact insert_formed _ _ _ trivial (insert_formed _ _ _ trivial formed)

-- A record that both passes rewrite.
structure IsSession (value : Value) (payload : Fields) : Prop where
  isMeta : isSessionMeta value = true
  payload : payloadOf value = some payload

theorem session_object (value : Value) (payload : Fields) (session : IsSession value payload) :
    ∃ fields, value = .object fields ∧ fieldOf fields "payload" = some (.object payload) := by
  have found := session.payload
  cases value with
  | object fields =>
      refine ⟨fields, rfl, ?_⟩
      simp only [payloadOf, get, Option.bind_eq_some_iff] at found
      obtain ⟨inner, field, object⟩ := found
      cases inner with
      | object fields =>
          rw [asObject, Option.some.injEq] at object
          rw [field, object]
      | _ => cases object
  | _ => cases found

theorem field_formed (name : String) (value : Value) (fields : Fields) (formed : WellFormedFields fields)
    (found : fieldOf fields name = some value) : WellFormed value := by
  induction fields with
  | nil => cases found
  | cons head rest ih =>
      obtain ⟨key, first⟩ := head
      rw [field_cons] at found
      by_cases same : key = name
      · rw [if_pos same, Option.some.injEq] at found
        exact found ▸ formed.1
      · rw [if_neg same] at found
        exact ih formed.2 found

theorem payload_formed (value : Value) (payload : Fields) (session : IsSession value payload) (formed : WellFormed value) :
    WellFormed (.object payload) := by
  obtain ⟨fields, rfl, found⟩ := session_object value payload session
  exact field_formed "payload" _ fields formed.1 found

theorem replace_formed (value : Value) (payload : Fields) (formed : WellFormed value) (inner : WellFormed (.object payload)) :
    WellFormed (replacePayload value payload) := by
  cases value with
  | object fields => exact ⟨insert_formed _ _ _ inner formed.1, insert_sorted _ _ _ formed.2⟩
  | _ => exact formed

theorem stamped_formed (cwd : Option String) (provider : String) (value : Value) (payload : Fields)
    (session : IsSession value payload) (formed : WellFormed value) : WellFormed (stamp cwd provider value payload) := by
  have inner := payload_formed value payload session formed
  exact replace_formed value _ formed ⟨stamp_formed cwd provider payload inner.1, stamp_sorted cwd provider payload inner.2⟩

theorem replace_session (value : Value) (payload other : Fields) (session : IsSession value payload) :
    IsSession (replacePayload value other) other := by
  obtain ⟨fields, rfl, found⟩ := session_object value payload session
  refine ⟨?_, ?_⟩
  · have kept : fieldOf (insertField "payload" (.object other) fields) "type" = fieldOf fields "type" := by
      rw [field_insert, if_neg (by decide)]
    have kind := session.isMeta
    rw [isSessionMeta, get] at kind
    rw [replacePayload, isSessionMeta, get, kept]
    exact kind
  · simp [payloadOf, get, replacePayload, field_insert, asObject]

theorem stamped_session (cwd : Option String) (provider : String) (value : Value) (payload : Fields)
    (session : IsSession value payload) :
    IsSession (stamp cwd provider value payload) (stampPayload cwd provider payload) :=
  replace_session value payload _ session

theorem replace_twice (value : Value) (first second : Fields) (formed : WellFormed value) :
    replacePayload (replacePayload value first) second = replacePayload value second := by
  cases value with
  | object fields => simp only [replacePayload, insert_twice _ _ _ fields formed.2]
  | _ => rfl

-- Stamping forgets an earlier stamp that wrote no more than this one.
theorem stamp_payload_twice (cwd earlier : Option String) (provider old : String) (payload : Fields)
    (sorted : KeysSorted payload) (covers : earlier.isSome = true → cwd.isSome = true) :
    stampPayload cwd provider (stampPayload earlier old payload) = stampPayload cwd provider payload := by
  refine fields_ext _ _ (stamp_sorted _ _ _ (stamp_sorted _ _ _ sorted)) (stamp_sorted _ _ _ sorted) fun name => ?_
  simp only [stamp_field]
  by_cases provider : "model_provider" = name
  · rw [if_pos provider, if_pos provider]
  · rw [if_neg provider, if_neg provider, if_neg provider]
    by_cases path : "cwd" = name
    · rw [if_pos path, if_pos path, if_pos path]
      cases cwd with
      | some path => rfl
      | none =>
          cases earlier with
          | none => rfl
          | some path => exact absurd (covers rfl) (by decide)
    · rw [if_neg path, if_neg path, if_neg path]

theorem stamp_twice (cwd earlier : Option String) (provider old : String) (value : Value) (payload : Fields)
    (session : IsSession value payload) (formed : WellFormed value) (covers : earlier.isSome = true → cwd.isSome = true) :
    stamp cwd provider (stamp earlier old value payload) (stampPayload earlier old payload) =
      stamp cwd provider value payload := by
  have inner := payload_formed value payload session formed
  rw [stamp, stamp, stamp_payload_twice cwd earlier provider old payload inner.2 covers, replace_twice value _ _ formed,
    stamp]

theorem stamp_id (cwd : Option String) (provider : String) (payload : Fields) :
    fieldOf (stampPayload cwd provider payload) "id" = fieldOf payload "id" := by
  rw [stamp_field, if_neg (by decide), if_neg (by decide)]

theorem replace_equal (left right : Value) (a b x y : Fields) (leftSession : IsSession left x) (rightSession : IsSession right y)
    (same : replacePayload left a = replacePayload right b) : a = b := by
  have leftPayload := (replace_session left x a leftSession).payload
  rw [same, (replace_session right y b rightSession).payload, Option.some.injEq] at leftPayload
  exact leftPayload.symm

end SessionSync.Rollout
