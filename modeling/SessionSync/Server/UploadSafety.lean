import SessionSync.Server.Uploads
import SessionSync.Core.Sha256
import SessionSync.Lib.Detached

set_option autoImplicit false

namespace SessionSync.Server.Uploads

open SessionSync.Core Checked Storage

section Safety

variable (env : StoreEnv)

def Sound (limit : UInt64) (objects : Std.ExtTreeMap String Bytes) : Prop :=
  ∀ (digest : String) (bytes : Bytes), objects[digest]? = some bytes → digestBytes env.lib bytes = digest ∧ bytes.length ≤ limit.toNat

def Call.Within (limit : UInt64) : Call → Prop
  | .putStream own _ _ _ _ => own ≤ limit
  | .openStore | .quarantine _ _ | .dropGuard _ => True

-- All that an action of a call can do to the installed objects.
inductive Effect : Call → StoreState → StoreState → Prop where
  | quiet (call : Call) (before after : StoreState) (same : after.objects = before.objects) : Effect call before after
  | installed (limit : UInt64) (name : Uuid) (digest : String) (expectedLength : UInt64) (stream : List (Except String Bytes))
      (bytes : Bytes) (before after : StoreState) (named : digestBytes env.lib bytes = digest) (short : bytes.length ≤ limit.toNat)
      (stored : after.objects = before.objects.insert digest bytes) :
      Effect (.putStream limit name digest expectedLength stream) before after
  | moved (digest destination : String) (before after : StoreState) (gone : after.objects = before.objects.erase digest) :
      Effect (.quarantine digest destination) before after

theorem sound_insert (limit : UInt64) (objects : Std.ExtTreeMap String Bytes) (bytes : Bytes) (short : bytes.length ≤ limit.toNat)
    (sound : Sound env limit objects) : Sound env limit (objects.insert (digestBytes env.lib bytes) bytes) := by
  intro digest found stored
  rw [Keyed.lookup_insert] at stored
  by_cases same : digest = digestBytes env.lib bytes
  · rw [if_pos same] at stored
    cases stored
    exact ⟨same.symm, short⟩
  · rw [if_neg same] at stored
    exact sound digest found stored

theorem sound_erase (limit : UInt64) (objects : Std.ExtTreeMap String Bytes) (gone : String) (sound : Sound env limit objects) :
    Sound env limit (objects.erase gone) := by
  intro digest found stored
  rw [Keyed.lookup_erase] at stored
  by_cases same : digest = gone
  · rw [if_pos same] at stored
    cases stored
  · rw [if_neg same] at stored
    exact sound digest found stored

theorem effect_sound (limit : UInt64) (call : Call) (before after : StoreState) (effect : Effect env call before after)
    (within : call.Within limit) (sound : Sound env limit before.objects) : Sound env limit after.objects := by
  cases effect with
  | quiet _ _ _ same =>
      rw [same]
      exact sound
  | installed own name digest expectedLength stream bytes _ _ named short stored =>
      rw [stored, ← named]
      exact sound_insert env limit _ bytes (le_trans short (UInt64.le_iff_toNat_le.mp within)) sound
  | moved digest destination _ _ gone =>
      rw [gone]
      exact sound_erase env limit _ digest sound

-- Only a quarantine of the digest takes its file away.
theorem effect_keeps (digest : String) (call : Call) (before after : StoreState) (effect : Effect env call before after)
    (other : ∀ destination, call = .quarantine digest destination → after.objects = before.objects)
    (present : digest ∈ before.objects) : digest ∈ after.objects := by
  cases effect with
  | quiet _ _ _ same =>
      rw [same]
      exact present
  | installed own name stored_ expectedLength stream bytes _ _ named short stored =>
      rw [stored]
      exact Std.ExtTreeMap.mem_insert.mpr (.inr present)
  | moved gone_ destination _ _ gone =>
      by_cases same : gone_ = digest
      · rw [other destination (by rw [same])]
        exact present
      · rw [gone, Std.ExtTreeMap.mem_erase, ne_eq, Std.LawfulEqOrd.compare_eq_iff_eq]
        exact ⟨same, present⟩

theorem write_verified_ok (limit expectedLength : UInt64) (digest : String) (stream : List (Except String Bytes))
    (received bytes : Bytes) (short : received.length ≤ limit.toNat)
    (run : writeVerifiedTemp env limit expectedLength digest stream received = .ok bytes) :
    digestBytes env.lib bytes = digest ∧ bytes.length ≤ limit.toNat := by
  induction stream generalizing received with
  | nil =>
      simp only [writeVerifiedTemp, bind_ok, ensure_ok, pure_ok] at run
      obtain ⟨_, _, _, named, rfl⟩ := run
      exact ⟨named, short⟩
  | cons chunk rest ih =>
      cases chunk with
      | error message => exact absurd run (error_ne_ok _ _)
      | ok chunk =>
          simp only [writeVerifiedTemp, bind_ok, ensure_ok] at run
          obtain ⟨_, bounded, _, fits, _, _, run⟩ := run
          apply ih (received ++ chunk) _ run
          have small := UInt64.le_iff_toNat_le.mp fits
          rwa [fileLength, UInt64.toNat_ofNat_of_lt' bounded] at small

section Steps

variable {α : Type}

def Quiet (state after : StoreState) : Prop := after.objects = state.objects

-- What every action of an upload does: nothing to the objects, or, as its last action,
-- it installs verified bytes.
def Uploading (limit : UInt64) (digest : String) (state after : StoreState) (rest : Action PutObjectResult) : Prop :=
  Quiet state after ∨ (∃ value, rest = .ret value) ∧ ∃ bytes, digestBytes env.lib bytes = digest ∧ bytes.length ≤ limit.toNat ∧
    after.objects = state.objects.insert digest bytes

theorem quiet_refl (state : StoreState) : Quiet state state := rfl

theorem file_exists_quiet (digest : String) : (fileExists digest).Acts Quiet := Prog.acts_query _ quiet_refl

theorem create_temp_quiet (name : Uuid) : (createTemp name).Acts Quiet := by
  apply Prog.acts_transact _ quiet_refl
  intro state value after run
  simp only [createNew, bind_ok, pure_ok] at run
  obtain ⟨_, _, done⟩ := run
  cases done
  exact quiet_refl _

theorem remove_temp_quiet (name : Uuid) : (removeTemp name).Acts Quiet := Prog.acts_update _ fun _ => rfl

theorem abandon_quiet (name : Uuid) (error : UploadError) : (abandon name error : Action α).Acts Quiet :=
  Prog.acts_bind _ _ (remove_temp_quiet name) fun _ => Prog.steps_of_except _ _

theorem already_present_quiet (limit expectedLength : UInt64) (name : Uuid) (digest : String) :
    (alreadyPresent env limit expectedLength name digest).Acts Quiet := by
  apply Prog.acts_bind _ _ (Prog.acts_query _ quiet_refl)
  intro verified
  apply Prog.acts_bind _ _ (remove_temp_quiet name)
  intro _
  exact Prog.acts_bind _ _ (Prog.steps_of_except _ _) fun _ => trivial

theorem rename_refused_quiet (limit expectedLength : UInt64) (name : Uuid) (digest : String) :
    (renameRefused env limit expectedLength name digest).Acts Quiet := by
  apply Prog.acts_bind _ _ (file_exists_quiet digest)
  intro present
  by_cases there : present = true
  · rw [if_pos there]
    exact already_present_quiet env limit expectedLength name digest
  · rw [if_neg there]
    exact abandon_quiet name _

theorem quiet_uploading (limit : UInt64) (digest : String) (prog : Action PutObjectResult) (quiet : prog.Acts Quiet) :
    prog.Steps (Uploading env limit digest) := Prog.steps_mono _ _ (fun _ _ _ same => .inl same) prog quiet

theorem install_uploading (limit expectedLength : UInt64) (name : Uuid) (digest : String) (bytes : Bytes)
    (named : digestBytes env.lib bytes = digest) (short : bytes.length ≤ limit.toNat) :
    (install env limit expectedLength name digest bytes).Steps (Uploading env limit digest) := by
  apply Prog.steps_bind _ _ (file_exists_quiet digest) (fun _ _ _ same => .inl same)
  intro present
  by_cases there : present = true
  · rw [if_pos there]
    exact quiet_uploading env limit digest _ (already_present_quiet env limit expectedLength name digest)
  · rw [if_neg there]
    intro state
    unfold renameTemp
    by_cases free : (state.temporaries.contains name && (env.replaces || !state.objects.contains digest)) = true
    · rw [if_pos free]
      exact ⟨.inr ⟨⟨.created, rfl⟩, bytes, named, short, rfl⟩, trivial⟩
    · rw [if_neg free]
      exact ⟨.inl rfl, quiet_uploading env limit digest _ (rename_refused_quiet env limit expectedLength name digest)⟩

theorem put_stream_uploading (limit : UInt64) (name : Uuid) (digest : String) (expectedLength : UInt64)
    (stream : List (Except String Bytes)) :
    (putStream env limit name digest expectedLength stream).Steps (Uploading env limit digest) := by
  have quietly : ∀ (state after : StoreState) (rest : Action PutObjectResult), Quiet state after →
      Uploading env limit digest state after rest := fun _ _ _ same => .inl same
  apply Prog.steps_bind _ _ (Prog.steps_of_except _ _) quietly
  intro _
  apply Prog.steps_bind _ _ (Prog.steps_of_except _ _) quietly
  intro _
  apply Prog.steps_bind _ _ (create_temp_quiet name) quietly
  intro _
  cases written : writeVerifiedTemp env limit expectedLength digest stream [] with
  | error error => exact quiet_uploading env limit digest _ (abandon_quiet name error)
  | ok bytes =>
      obtain ⟨named, short⟩ := write_verified_ok env limit expectedLength digest stream [] bytes (Nat.zero_le _) written
      exact install_uploading env limit expectedLength name digest bytes named short

theorem quarantine_moves (digest destination : String) :
    (quarantine digest destination).Acts fun state after => Quiet state after ∨ after.objects = state.objects.erase digest := by
  apply Prog.acts_bind _ _ (Prog.steps_of_except _ _)
  intro _
  apply Prog.acts_bind _ _ (Prog.acts_query _ fun state => .inl (quiet_refl state))
  intro present
  by_cases there : present = true
  · rw [if_pos there]
    intro state
    refine ⟨?_, trivial⟩
    unfold moveAway
    cases stored : state.objects[digest]? with
    | none => exact .inl rfl
    | some bytes => exact .inr rfl
  · rw [if_neg there]
    exact Prog.acts_query _ fun state => .inl (quiet_refl state)

theorem open_store_quiet : openStore.Acts Quiet :=
  Prog.acts_bind _ _ (Prog.acts_query _ quiet_refl) fun stale => Prog.acts_for_each _ (fun name => remove_temp_quiet name) stale

-- An upload that comes to a value has seen its object installed.
theorem exists_shows (digest : String) (next : Bool → Action PutObjectResult) (seen : Prop)
    (absent : (next false).Shows (digest ∈ ·.objects) seen) :
    (fileExists digest >>= next).Shows (digest ∈ ·.objects) seen := by
  intro state
  show (next (state.objects.contains digest)).Shows _ (seen ∨ digest ∈ state.objects)
  cases there : state.objects.contains digest with
  | true => exact Prog.shows_seen _ _ _ (.inr (Std.ExtTreeMap.contains_iff_mem.mp there))
  | false => exact Prog.shows_mono _ _ seen _ .inl absent

theorem abandon_shows (shown : StoreState → Prop) (name : Uuid) (error : UploadError) (seen : Prop) :
    (abandon name error : Action PutObjectResult).Shows shown seen :=
  Prog.shows_bind shown _ _ seen fun _ => trivial

theorem install_shows (limit expectedLength : UInt64) (name : Uuid) (digest : String) (bytes : Bytes) :
    (install env limit expectedLength name digest bytes).Shows (digest ∈ ·.objects) False := by
  apply exists_shows
  intro state
  unfold renameTemp
  by_cases free : (state.temporaries.contains name && (env.replaces || !state.objects.contains digest)) = true
  · rw [if_pos free]
    exact .inr (Std.ExtTreeMap.mem_insert_self)
  · rw [if_neg free]
    exact exists_shows digest _ _ (abandon_shows _ name _ _)

theorem put_stream_shows (limit : UInt64) (name : Uuid) (digest : String) (expectedLength : UInt64)
    (stream : List (Except String Bytes)) :
    (putStream env limit name digest expectedLength stream).Shows (digest ∈ ·.objects) False := by
  apply Prog.shows_bind
  intro _
  apply Prog.shows_bind
  intro _
  apply Prog.shows_bind
  intro _
  cases writeVerifiedTemp env limit expectedLength digest stream [] with
  | error error => exact abandon_shows _ name error False
  | ok bytes => exact install_shows env limit expectedLength name digest bytes

end Steps

theorem program_effect (call : Call) (taken : List (StoreState × StoreState)) (rest : Action Outcome)
    (left : Schedule.After (program env call) taken rest) : ∀ pair ∈ taken, Effect env call pair.1 pair.2 := by
  cases call with
  | openStore =>
      obtain ⟨inner, path, _⟩ := Schedule.after_map _ _ taken rest left
      exact fun pair member => .quiet _ _ _ (Schedule.after_acts _ _ _ _ open_store_quiet path pair member)
  | putStream limit name digest expectedLength stream =>
      obtain ⟨inner, path, _⟩ := Schedule.after_map _ _ taken rest left
      have steps :=
        Prog.steps_mono _ (fun state after _ => Effect env (.putStream limit name digest expectedLength stream) state after)
        (fun state after rest fits => ?_) _ (put_stream_uploading env limit name digest expectedLength stream)
      · exact Schedule.after_acts _ _ _ _ steps path
      · rcases fits with quiet | ⟨_, bytes, named, short, stored⟩
        · exact .quiet _ _ _ quiet
        · exact .installed _ _ _ _ _ bytes _ _ named short stored
  | quarantine digest destination =>
      obtain ⟨inner, path, _⟩ := Schedule.after_map _ _ taken rest left
      intro pair member
      rcases Schedule.after_acts _ _ _ _ (quarantine_moves digest destination) path pair member with quiet | gone
      · exact .quiet _ _ _ quiet
      · exact .moved _ _ _ _ gone
  | dropGuard name =>
      obtain ⟨inner, path, _⟩ := Schedule.after_map _ _ taken rest left
      exact fun pair member => .quiet _ _ _ (Schedule.after_acts _ _ _ _ (remove_temp_quiet name) path pair member)

theorem map_ret {σ ε α β : Type} (wrap : β → α) (prog : Prog σ ε β) (value : α) (same : wrap <$> prog = .ret value) :
    ∃ inner, prog = .ret inner := by
  cases prog with
  | ret inner => exact ⟨inner, rfl⟩
  | fail error => cases same
  | act step rest => cases same

abbrev StoreEvent := Schedule.Event StoreState UploadError Outcome Call
abbrev StoreWorld := Schedule.World StoreState UploadError Outcome Call

abbrev StoreHappening := Schedule.Happening StoreState UploadError Outcome Call
abbrev StoreThreads := Schedule.Threads StoreState UploadError Outcome Call

theorem changes_effect (event : StoreHappening) (fits : event.Fits (program env)) (call : Call) (before after : StoreState)
    (changes : event.Changes call before after) : Effect env call before after := by
  obtain ⟨taken, rest, left⟩ := Schedule.changes_path event fits call before after changes
  exact program_effect env call _ rest left (before, after) (List.mem_append_right _ List.mem_cons_self)

theorem failed_unchanged (own : UInt64) (name : Uuid) (digest : String) (expectedLength : UInt64)
    (stream : List (Except String Bytes)) (taken : List (StoreState × StoreState)) (rest : Action Outcome)
    (left : Schedule.After (program env (.putStream own name digest expectedLength stream)) taken rest)
    (open_ : ∀ value, rest ≠ .ret value) : ∀ pair ∈ taken, pair.2.objects = pair.1.objects := by
  obtain ⟨inner, path, same⟩ := Schedule.after_map _ _ taken rest left
  apply Schedule.after_unfinished Quiet _ inner taken _ path
  · intro value last
    rw [last] at same
    exact open_ (.put value) same
  · refine Prog.steps_mono _ _ (fun state after rest fits => ?_) _ (put_stream_uploading env own name digest expectedLength stream)
    exact Or.imp_right And.left fits

theorem returned_shown (own : UInt64) (name : Uuid) (digest : String) (expectedLength : UInt64) (stream : List (Except String Bytes))
    (taken : List (StoreState × StoreState)) (value : Outcome)
    (left : Schedule.After (program env (.putStream own name digest expectedLength stream)) taken (.ret value)) :
    ∃ pair ∈ taken, digest ∈ pair.2.objects := by
  obtain ⟨inner, path, same⟩ := Schedule.after_map _ _ taken _ left
  obtain ⟨result, rfl⟩ := map_ret _ inner value same.symm
  exact (Schedule.after_shows _ _ taken result False (put_stream_shows env own name digest expectedLength stream) path).resolve_left
    id

-- All that the action of an upload can do.
def Installs (limit : UInt64) (digest : String) (before after : StoreState) : Prop :=
  after.objects = before.objects ∨ ∃ bytes, digestBytes env.lib bytes = digest ∧ bytes.length ≤ limit.toNat ∧
    after.objects = before.objects.insert digest bytes

theorem put_installs_only (own : UInt64) (name : Uuid) (digest : String) (expectedLength : UInt64)
    (stream : List (Except String Bytes)) (taken : List (StoreState × StoreState)) (before after : StoreState)
    (fits : Schedule.Happening.Fits (program env) (.landed (.putStream own name digest expectedLength stream) taken before after)) :
    Installs env own digest before after := by
  obtain ⟨rest, left⟩ := fits
  obtain ⟨inner, path, _⟩ := Schedule.after_map _ _ _ rest left
  have steps := Prog.steps_mono _ (fun state later _ => Installs env own digest state later)
    (fun _ _ _ fits => Or.imp_right And.right fits) _ (put_stream_uploading env own name digest expectedLength stream)
  exact Schedule.after_acts _ _ _ _ steps path (before, after) (List.mem_append_right _ List.mem_cons_self)

-- What holds once any uploads, quarantines and restarts have run beside each other. An
-- upload that began and returned while no quarantine took the file of its digest leaves
-- its object installed.
theorem object_store_safe (limit : UInt64) (start : StoreState) (events : List StoreHappening) (last : StoreThreads)
    (run : Schedule.ThreadRun (program env) ⟨⟨start, []⟩, []⟩ events last) (sound : Sound env limit start.objects)
    (limits : ∀ call, .ran (.began call) ∈ events → call.Within limit) :
    Sound env limit last.world.state.objects ∧
      (∀ own name digest expectedLength stream taken,
        .ran (.failed (.putStream own name digest expectedLength stream) taken) ∈ events ∨
          .gaveUp (.putStream own name digest expectedLength stream) taken ∈ events →
        ∀ pair ∈ taken, pair.2.objects = pair.1.objects) ∧
      (∀ own name digest expectedLength stream taken before after,
        .landed (.putStream own name digest expectedLength stream) taken before after ∈ events →
          Installs env own digest before after) ∧
      ∀ own name digest expectedLength stream taken value earlier stretch,
        events = earlier ++ (stretch ++ [.ran (.returned (.putStream own name digest expectedLength stream) taken value)]) →
          .ran (.began (.putStream own name digest expectedLength stream)) ∉ earlier →
            (∀ event ∈ stretch, ∀ destination before after, event.Changes (.quarantine digest destination) before after →
              after.objects = before.objects) → digest ∈ last.world.state.objects := by
  have fits := Schedule.thread_run_fits _ _ _ run (List.forall_mem_nil _) (List.forall_mem_nil _)
  have effect := fun event member => changes_effect env event (fits event member)
  refine ⟨?_, fun own name digest expectedLength stream taken ended => ?_,
    fun own name digest expectedLength stream taken before after member => ?_,
    fun own name digest expectedLength stream taken value earlier stretch split fresh spared => ?_⟩
  · have within := (Schedule.thread_began (Call.Within limit) _ _ _ run (List.forall_mem_nil _) (List.forall_mem_nil _) limits).2
    apply Schedule.thread_relates (fun before after : StoreState => Sound env limit before.objects → Sound env limit after.objects)
      (fun _ holds => holds) (fun _ _ _ one two holds => two (one holds)) _ _ _ run _ sound
    intro event member call before after changes
    exact effect_sound env limit call before after (effect event member call before after changes)
      (within event member call before after changes)
  · obtain ⟨rest, left, open_⟩ : ∃ rest,
        Schedule.After (program env (.putStream own name digest expectedLength stream)) taken rest ∧ ∀ value, rest ≠ .ret value :=
      ended.elim (fits _) (fits _)
    exact failed_unchanged env own name digest expectedLength stream taken rest left open_
  · exact put_installs_only env own name digest expectedLength stream taken before after (fits _ member)
  · rw [split] at run fits effect
    obtain ⟨mid, begins, run⟩ := (Schedule.thread_append _ _ _ _).mp run
    obtain ⟨before, middle, ends⟩ := (Schedule.thread_append _ _ _ _).mp run
    have none_ : ∀ task ∈ mid.world.running, task.call ≠ .putStream own name digest expectedLength stream := by
      refine (Schedule.thread_began (· ≠ .putStream own name digest expectedLength stream) _ _ _ begins (List.forall_mem_nil _)
        (List.forall_mem_nil _) ?_).1
      exact fun call member same => fresh (same ▸ member)
    have shown := Schedule.thread_shown (digest ∈ ·.objects) (.putStream own name digest expectedLength stream) mid before stretch
      middle (fun task member same => absurd same (none_ task member)) fun event member other state after changes =>
        effect_keeps env digest other state after
          (effect event (List.mem_append_right _ (List.mem_append_left _ member)) other state after changes)
          fun destination same => spared event member destination state after (same ▸ changes)
    have left := fits (.ran (.returned _ taken value)) (List.mem_append_right _ (List.mem_append_right _ List.mem_cons_self))
    obtain ⟨pair, member, found⟩ := returned_shown env own name digest expectedLength stream taken value left
    cases ends with
    | cons _ mid_ _ _ _ step rest =>
        cases rest
        cases step with
        | runs world after event detached step =>
            cases step with
            | returns state others after call_ taken_ value_ =>
                exact shown _ (List.mem_append_right _ List.mem_cons_self) rfl pair member found

end Safety

theorem put_stream_ready (env : StoreEnv) (limit : UInt64) (name : Uuid) (digest : String) (expectedLength : UInt64)
    (stream : List (Except String Bytes)) (bytes : Bytes) (valid : validSha256 digest = true) (fits : expectedLength ≤ limit)
    (written : writeVerifiedTemp env limit expectedLength digest stream [] = .ok bytes) :
    putStream env limit name digest expectedLength stream =
      createTemp name >>= fun _ => install env limit expectedLength name digest bytes := by
  rw [putStream, objectPath, ensure, if_pos valid, ensure, if_pos fits, written]
  rfl

namespace Sample

def env : StoreEnv := ⟨sampleLib, true⟩
def digest : String := digestBytes sampleLib []
def name : Uuid := 1
def other : Uuid := 2
def empty : StoreState := ⟨∅, ∅, ∅⟩
def waiting : StoreState := { empty with temporaries := empty.temporaries.insert other }
def held : StoreState := ⟨(∅ : Std.ExtTreeMap String Bytes).insert digest [], waiting.temporaries.erase other, ∅⟩
def begun : StoreState := { held with temporaries := held.temporaries.insert name }
def upload : Call := .putStream 16 name digest 0 []
def removal : Call := .quarantine digest "gc/object"
def moved : StoreState := (moveAway digest "gc/object" begun).2
def ended (state : StoreState) : StoreState := { state with temporaries := state.temporaries.erase name }

theorem present : held.objects.contains digest = true := Std.ExtTreeMap.contains_iff_mem.mpr Std.ExtTreeMap.mem_insert_self

theorem written : writeVerifiedTemp env 16 0 digest [] [] = .ok [] := by
  simp only [writeVerifiedTemp, bind_ok, ensure_ok, pure_ok]
  exact ⟨(), rfl, (), rfl, trivial⟩

def finish (verified : Except UploadError Unit) : Action Outcome :=
  Outcome.put <$> (removeTemp name >>= fun _ => Prog.ofExcept verified >>= fun _ => pure PutObjectResult.alreadyPresent)

theorem stored : begun.objects[digest]? = some [] := (Keyed.lookup_insert _ _ _ _).trans (if_pos rfl)

theorem verified : verifyFile env 16 0 digest begun.objects = .ok () := by
  simp only [verifyFile, bind_ok, found_ok, ensure_ok]
  exact ⟨[], stored, (), by decide, (), rfl, rfl⟩

def taken : List (StoreState × StoreState) := [(held, begun), (begun, begun), (begun, begun)]

theorem created : Prog.attemptStep (createNew name) held = (.ok (), begun) := by
  have free : held.temporaries.contains name = false := by
    simp [held, waiting, empty, name, other, Std.ExtTreeSet.contains_erase, Std.ExtTreeSet.contains_insert]
  rw [Prog.attemptStep, createNew, ensure, if_pos free]
  rfl

theorem upload_prog (name : Uuid) : program env (.putStream 16 name digest 0 []) =
    .act (Prog.attemptStep (createNew name)) fun answer =>
      Outcome.put <$> (Prog.ofExcept answer >>= fun _ => install env 16 0 name digest []) := by
  show Outcome.put <$> putStream env 16 name digest 0 [] = _
  rw [put_stream_ready env 16 name digest 0 [] [] (digest_bytes_valid _ _) (by decide) written]
  rfl

def installs (name : Uuid) : Action PutObjectResult := do
  let renamed ← .act (renameTemp env name digest []) .ret
  if renamed then return .created else renameRefused env 16 0 name digest

def remaining (name : Uuid) : Action Outcome :=
  Outcome.put <$> (do
    let present ← fileExists digest
    if present then alreadyPresent env 16 0 name digest else installs name)

-- The upload that is given up while its file is renamed, which happens all the same.
def first : Call := .putStream 16 other digest 0 []

def before : List (StoreState × StoreState) := [(empty, waiting), (waiting, waiting)]

def given : List StoreHappening :=
  [.ran (.began first), .ran (.acted first empty (remaining other) waiting),
    .ran (.acted first waiting (Outcome.put <$> installs other) waiting), .gaveUp first before, .landed first before waiting held]

theorem given_run : Schedule.ThreadRun (program env) ⟨⟨empty, []⟩, []⟩ given ⟨⟨held, []⟩, []⟩ := by
  have begins := Schedule.run_begins (program env) empty [] first _ _ (upload_prog other)
  have free : Prog.attemptStep (createNew other) empty = (.ok (), waiting) := by
    have vacant : empty.temporaries.contains other = false := Std.ExtTreeSet.contains_empty
    rw [Prog.attemptStep, createNew, ensure, if_pos vacant]
    rfl
  rw [free] at begins
  have missing : (waiting.objects.contains digest, waiting) = (false, waiting) := congrArg (·, waiting) Std.ExtTreeMap.contains_empty
  have looks := Schedule.run_acts (program env) waiting waiting [] [] first [(empty, waiting)] (remaining other) _ _ false rfl missing
  have runs := Schedule.thread_runs _ _ _ [] ((Schedule.run_append _ _ _ _).mpr ⟨_, begins, looks⟩)
  have renamed : (renameTemp env other digest [] waiting).2 = held := by
    have there : waiting.temporaries.contains other = true := Std.ExtTreeSet.contains_iff_mem.mpr Std.ExtTreeSet.mem_insert_self
    rw [renameTemp, there]
    rfl
  have lands := @Schedule.ThreadStep.lands _ _ _ _ (program env) waiting [] [] []
    ⟨first, before, fun state => (renameTemp env other digest [] state).2⟩
  dsimp only at lands
  rw [renamed] at lands
  exact (Schedule.thread_append _ [_, _] _ _).mpr ⟨_, runs,
    .cons _ _ _ _ _ (.givesUp waiting [] [] first before (renameTemp env other digest []) _ []) (.cons _ _ _ _ _ lands (.nil _))⟩

def checked : List StoreEvent :=
  [.began upload, .acted upload held (remaining name) begun,
    .acted upload begun (Outcome.put <$> alreadyPresent env 16 0 name digest) begun, .acted upload begun (finish (.ok ())) begun]

theorem upload_checked : Schedule.Run (program env) ⟨held, []⟩ checked ⟨begun, [⟨upload, taken, finish (.ok ())⟩]⟩ := by
  have begins := Schedule.run_begins (program env) held [] upload _ _ (upload_prog name)
  rw [created] at begins
  have found : (begun.objects.contains digest, begun) = (true, begun) :=
    by rw [show begun.objects.contains digest = true from present]
  have looks := Schedule.run_acts (program env) begun begun [] [] upload [(held, begun)] (remaining name) _ _ true rfl found
  have verifies := Schedule.run_acts (program env) begun begun [] [] upload [(held, begun), (begun, begun)]
    (Outcome.put <$> alreadyPresent env 16 0 name digest) _ finish (.ok ()) rfl (congrArg (·, begun) verified)
  exact (Schedule.run_append _ _ _ _).mpr ⟨_, begins, (Schedule.run_append _ _ _ _).mpr ⟨_, looks, verifies⟩⟩

def clears (state : StoreState) : StoreEvent := .acted upload state (.ret (.put .alreadyPresent)) (ended state)

def finished (state : StoreState) : List StoreEvent :=
  [clears state, .returned upload (taken ++ [(state, ended state)]) (.put .alreadyPresent)]

theorem upload_finished (state : StoreState) (others : List (Schedule.Task StoreState UploadError Outcome Call)) :
    Schedule.Run (program env) ⟨state, others ++ [⟨upload, taken, finish (.ok ())⟩]⟩
      (finished state) ⟨ended state, others ++ []⟩ := by
  have removes := Schedule.run_acts (program env) state (ended state) others [] upload taken (finish (.ok ())) _ _ () rfl rfl
  exact (Schedule.run_append _ _ _ _).mpr ⟨_, removes, .cons _ _ _ _ _ (.returns _ _ _ _ _ _) (.nil _)⟩

def taking : List StoreEvent :=
  [.began removal, .acted removal begun (.act (moveAway digest "gc/object") fun moved => .ret (.quarantined moved)) begun,
    .acted removal begun (.ret (.quarantined true)) moved]

theorem removal_prog : program env removal =
    .act (fun state => (state.objects.contains digest, state)) fun present =>
      Outcome.quarantined <$> (if present then .act (moveAway digest "gc/object") .ret
        else Prog.query fun state => state.quarantined.contains "gc/object") := by
  show Outcome.quarantined <$> quarantine digest "gc/object" = _
  rw [quarantine, objectPath, ensure, if_pos (show validSha256 digest = true from digest_bytes_valid sampleLib [])]
  rfl

theorem move : moveAway digest "gc/object" begun = (true, moved) := by rw [moved, moveAway, stored]

theorem moved_gone : digest ∉ (ended moved).objects := by
  have erased : (ended moved).objects = begun.objects.erase digest := by rw [ended, moved, moveAway, stored]
  rw [erased, Std.ExtTreeMap.mem_erase, not_and_or]
  exact .inl fun differs => differs Std.ReflCmp.compare_self

theorem removal_run (others : List (Schedule.Task StoreState UploadError Outcome Call)) :
    ∃ task, Schedule.Run (program env) ⟨begun, others⟩ taking ⟨moved, task :: others⟩ := by
  have begins := Schedule.run_begins (program env) begun others removal _ _ removal_prog
  rw [show begun.objects.contains digest = true from present] at begins
  have moves := Schedule.run_acts (program env) begun moved [] others removal [(begun, begun)]
    (.act (moveAway digest "gc/object") fun moved => .ret (.quarantined moved)) _ _ true rfl move
  exact ⟨_, (Schedule.run_append _ _ _ _).mpr ⟨_, begins, moves⟩⟩

theorem held_sound : Sound env 16 held.objects := sound_insert env 16 ∅ [] (Nat.zero_le _) fun key bytes stored => by cases stored

end Sample

open SessionSync.Server.Uploads.Sample in
theorem object_store_safe_sample :
    Sound env 16 (ended begun).objects ∧ Installs env 16 digest waiting held ∧ digest ∈ (ended begun).objects := by
  have finishes := (Schedule.run_append _ _ _ _).mpr ⟨_, upload_checked, upload_finished begun []⟩
  have run := (Schedule.thread_append _ _ _ _).mpr ⟨_, given_run, Schedule.thread_runs _ _ _ [] finishes⟩
  have limits : ∀ call, .ran (.began call) ∈ given ++ (checked ++ finished begun).map .ran → call.Within 16 := by
    intro call member
    have one : call = first ∨ call = upload := by simpa [given, checked, finished, clears] using member
    rcases one with rfl | rfl <;> exact (show (16 : UInt64) ≤ 16 from le_refl 16)
  have nothing : Sound env 16 empty.objects := fun key bytes stored => by cases stored
  obtain ⟨sound, _, landed, returned⟩ := object_store_safe env 16 empty _ _ run nothing limits
  refine ⟨sound, landed 16 other digest 0 [] before waiting held (by simp [given, first]), ?_⟩
  refine returned 16 name digest 0 [] (taken ++ [(begun, ended begun)]) (.put .alreadyPresent) given
    ((checked ++ [clears begun]).map .ran) rfl ?_ ?_
  · simp [given, first, name, other]
  · intro event member destination before after changes
    cases changes <;> simp [checked, clears, upload] at member

open SessionSync.Server.Uploads.Sample in
theorem returned_put_missing :
    ¬ ∀ (env : StoreEnv) (limit : UInt64) (start : StoreState) (events : List StoreEvent) (last : StoreWorld)
      (own : UInt64) (name : Uuid)
      (digest : String) (expectedLength : UInt64) (stream : List (Except String Bytes)) (taken : List (StoreState × StoreState))
      (value : Outcome),
      Schedule.Run (program env) ⟨start, []⟩
        (events ++ [.returned (.putStream own name digest expectedLength stream) taken value]) last →
        Sound env limit start.objects → own ≤ limit → digest ∈ last.state.objects := by
  intro claim
  obtain ⟨task, removes⟩ := removal_run [⟨upload, taken, finish (.ok ())⟩]
  have run := (Schedule.run_append _ _ _ _).mpr ⟨_, upload_checked, (Schedule.run_append _ _ _ _).mpr
    ⟨_, removes, upload_finished moved [task]⟩⟩
  have there := claim env 16 held (checked ++ (taking ++ [_])) _ 16 name digest 0 [] _ _ run held_sound (by decide)
  exact moved_gone there

end SessionSync.Server.Uploads
