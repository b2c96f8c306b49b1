import SessionSync.Server.Recording

set_option autoImplicit false

namespace SessionSync.Server

open SessionSync.Core Checked Storage

def FilesKept (state after : ServerState) : Prop := ∀ key, Keeps state.files after.files key

-- Beside an upload no file goes, and an object that gets a row has its file.
def presenceRely : Gate.Mode → ServerState → ServerState → Prop
  | .shared, state, after => FilesKept state after
  | .free, _, _ | .exclusive, _, _ => True

def presenceGuar : Gate.Mode → ServerState → ServerState → Prop
  | .free, state, after => FilesKept state after
  | .shared, state, after => FilesKept state after ∧
      ∀ (key : ObjectKey) (row : StorageObjectRow), after.db.storageObjects[key]? = some row →
        state.db.storageObjects[key]? = some row ∨ key ∈ after.files
  | .exclusive, _, _ => True

theorem files_kept_refl (state : ServerState) : FilesKept state state := fun _ _ stored => stored

theorem files_kept_trans (a b c : ServerState) (first : FilesKept a b) (second : FilesKept b c) : FilesKept a c :=
  fun key bytes stored => second key bytes (first key bytes stored)

theorem files_kept_mem (state after : ServerState) (kept : FilesKept state after) (key : ObjectKey) (present : key ∈ state.files) :
    key ∈ after.files := by
  obtain ⟨bytes, stored⟩ := Option.isSome_iff_exists.mp (Std.ExtTreeMap.mem_iff_isSome_getElem?.mp present)
  exact Std.ExtTreeMap.mem_iff_isSome_getElem?.mpr (by rw [kept key bytes stored, Option.isSome_some])

theorem untouched_presence (state after : ServerState) (moved : Untouched state after) : presenceGuar .shared state after := by
  refine ⟨fun key bytes stored => ?_, fun key row stored => ?_⟩
  · rw [moved.files]
    exact stored
  · rw [moved.rows] at stored
    exact .inl stored

abbrev PresenceWp {ε α : Type} (prog : Prog ServerState ε α) (post : α → ServerState → Prop) (state : ServerState) : Prop :=
  prog.Wp (fun _ => True) FilesKept (presenceGuar .shared) (Prog.okay post) state

theorem presence_idle (state : ServerState) : presenceGuar .shared state state :=
  untouched_presence state state (untouched_refl state)

theorem presence_seq {ε α β : Type} (prog : Prog ServerState ε α) (next : α → Prog ServerState ε β) (post : β → ServerState → Prop)
    (state : ServerState) (first : PresenceWp prog (fun value seen => PresenceWp (next value) post seen) state) :
    PresenceWp (prog >>= next) post state := Prog.wp_seq files_kept_refl prog next post state first

variable (env : ServerEnv) (debug : Option String → String)

theorem verify_presence (key : ObjectKey) (expectedLength : UInt64) (state : ServerState) (present : key ∈ state.files) :
    PresenceWp (do Prog.read fun state : ServerState => verifyFile env key expectedLength state.files; return false)
      (fun _ seen => key ∈ seen.files) state := by
  apply presence_seq
  apply Prog.wp_read _ _ _ fun seen _ => presence_idle seen
  intro seen _ moved _ _ last later _
  apply Prog.wp_pure
  exact fun final more _ => files_kept_mem _ final (files_kept_trans _ _ _ moved (files_kept_trans _ _ _ later more)) key present

theorem rename_presence (key : ObjectKey) (bytes : Bytes) (state : ServerState) :
    presenceGuar .shared state (renameInto key bytes state).2 ∧ key ∈ (renameInto key bytes state).2.files := by
  refine ⟨⟨(rename_mild key bytes state).files, fun other row stored => .inl ?_⟩, ?_⟩
  · unfold renameInto at stored
    split at stored <;> exact stored
  · unfold renameInto
    by_cases present : state.files.contains key = true
    · rw [if_pos present]
      exact Std.ExtTreeMap.contains_iff_mem.mp present
    · rw [if_neg present]
      exact Std.ExtTreeMap.mem_insert_self

theorem put_stream_presence (key : ObjectKey) (expectedLength : UInt64) (stream : List Bytes) (state : ServerState) :
    PresenceWp (putStream env key expectedLength stream) (fun _ seen => key ∈ seen.files) state := by
  have checks : ∀ {α : Type} (result : Except ObjectStoreError α) (at_ : ServerState) (post : α → ServerState → Prop),
      (∀ value seen, post value seen) → PresenceWp (Prog.ofExcept result) post at_ := fun result at_ post holds =>
    Prog.wp_check result post at_ fun value _ seen _ _ => holds value seen
  apply presence_seq
  apply checks
  intro _ one
  apply presence_seq
  apply checks
  intro _ two
  apply presence_seq
  apply checks
  intro bytes three
  apply presence_seq
  apply Prog.wp_act
  intro seen _ _
  refine ⟨presence_idle seen, fun last later _ => ?_⟩
  split
  · next present =>
      exact verify_presence env key expectedLength last
        (files_kept_mem seen last later key (Std.ExtTreeMap.contains_iff_mem.mp present))
  · apply presence_seq
    apply Prog.wp_act
    intro now _ _
    obtain ⟨keeps, installed⟩ := rename_presence key bytes now
    refine ⟨keeps, fun after more _ => ?_⟩
    have present := files_kept_mem _ after more key installed
    split
    · apply Prog.wp_pure
      exact fun final rest _ => files_kept_mem after final rest key present
    · apply presence_seq
      apply Prog.wp_act
      intro there moved _
      refine ⟨presence_idle there, fun final rest _ => ?_⟩
      have still := files_kept_mem after final (files_kept_trans _ _ _ moved rest) key present
      apply presence_seq
      apply Prog.wp_check
      intro _ _ ends onward _
      exact verify_presence env key expectedLength ends (files_kept_mem final ends onward key still)

theorem acknowledge_presence (key : ObjectKey) (expectedLength : UInt64) (created : Bool) (state : ServerState)
    (present : key ∈ state.files) :
    PresenceWp (acknowledgePut key expectedLength created) (fun _ _ => True) state := by
  apply presence_seq
  apply wp_transaction _ _ _ fun seen _ => presence_idle seen
  intro seen db _ moved _ run
  simp only [bind_ok, pure_ok, Prod.mk.injEq] at run
  obtain ⟨after, recorded, rfl, _⟩ := run
  have there := files_kept_mem state seen moved key present
  refine ⟨⟨fun _ _ stored => stored, fun other row stored => ?_⟩, fun last _ _ => ?_⟩
  · rcases record_ok _ _ _ _ recorded with ⟨_, rfl⟩ | ⟨length, rfl⟩
    · exact .inl stored
    · replace stored := (Keyed.lookup_insert _ _ _ _).symm.trans stored
      by_cases same : other = key
      · exact .inr (same ▸ there)
      · rw [if_neg (show other ≠ StorageObjectRef.key ⟨key.1, key.2, expectedLength⟩ from same)] at stored
        exact .inl stored
  · apply Prog.wp_pure
    exact fun _ _ _ => trivial

theorem put_presence (key : ObjectKey) (expectedLength : UInt64) (stream : List Bytes) (state : ServerState) :
    PresenceWp (Server.putTypedObject env key expectedLength stream) (fun _ _ => True) state := by
  apply presence_seq
  apply Prog.wp_check
  intro _ _ one _ _
  apply presence_seq
  apply Prog.wp_check
  intro _ _ two _ _
  apply presence_seq
  apply Prog.wp_rename_error
  refine Prog.wp_mono _ _ _ two (fun outcome seen present created same => ?_) (put_stream_presence env key expectedLength stream two)
  exact acknowledge_presence key expectedLength created seen (present created same)

theorem untouched_presence_wp (mode : Gate.Mode) (prog : Handler Reply) (acts : prog.Acts Untouched) (state : ServerState) :
    prog.Wp (fun _ => True) (presenceRely mode) (presenceGuar mode) (Prog.okay fun _ _ => True) state := by
  refine Prog.wp_mono _ _ _ state (fun _ _ _ _ _ => trivial)
    (Prog.wp_of_acts _ _ _ (fun _ => True) prog acts (fun before after _ moved => ?_) (fun _ _ _ => id)
      (fun _ _ _ => id) state trivial)
  have keeps := untouched_presence before after moved
  cases mode with
  | free => exact keeps.1
  | shared => exact keeps
  | exclusive => trivial

-- A request that has the lock for itself owes the others nothing.
theorem alone_presence_wp (prog : Handler Reply) (state : ServerState) :
    prog.Wp (fun _ => True) (presenceRely .exclusive) (presenceGuar .exclusive) (Prog.okay fun _ _ => True) state := by
  exact Prog.wp_mono _ _ _ state (fun _ _ _ _ _ => trivial)
    (Prog.wp_of_acts _ _ _ (fun _ => True) prog (Prog.acts_any prog) (fun _ _ _ _ => trivial) (fun _ _ _ => id)
      (fun _ _ _ => id) state
      trivial)

theorem presence_rules : Gate.Rules (server env debug) (fun _ => True) presenceRely presenceGuar (fun _ _ => True) where
  refl mode state := by
    cases mode with
    | shared => exact files_kept_refl state
    | free | exclusive => trivial
  trans mode a b c first second := by
    cases mode with
    | shared => exact files_kept_trans a b c first second
    | free | exclusive => trivial
  guarInv _ _ _ _ _ := trivial
  guarRely mode other a b beside keeps := by
    cases other with
    | free | exclusive => trivial
    | shared =>
        cases mode with
        | free => exact keeps
        | shared => exact keeps.1
        | exclusive => exact beside.elim
  driftInv _ _ _ _ := trivial
  driftRely mode a b moved := by
    cases mode with
    | free | exclusive => trivial
    | shared =>
        obtain ⟨later, _, rfl⟩ := moved
        exact files_kept_refl a
  keptRely _ _ _ _ _ := trivial
  requests mode prog asked state _ := by
    cases asked with
    | createNamespace displayName id =>
        exact untouched_presence_wp .free _ (Prog.acts_map _ _ (create_namespace_acts untouched_db displayName id)) state
    | renameNamespace namespaceId displayName =>
        exact untouched_presence_wp .free _ (Prog.acts_map _ _ (rename_namespace_acts untouched_db namespaceId displayName)) state
    | commitRevisionRootV4 namespaceId payload =>
        exact untouched_presence_wp .shared _ (Prog.acts_map _ _ (commit_acts env debug untouched_db namespaceId payload)) state
    | putTypedObject key expectedLength stream =>
        apply Prog.wp_map
        exact put_presence env key expectedLength stream state
    | truncateHistory | restoreHistoryTrash | purgeHistoryTrash | quarantineServerGc => exact alone_presence_wp _ state
  boot state _ := Prog.wp_mono _ _ _ state (fun _ _ _ => trivial) (alone_presence_wp _ state)

end SessionSync.Server
