import SessionSync.Config.NoLostRule
import SessionSync.Core.Sha256

set_option autoImplicit false

namespace SessionSync.Config

open SessionSync.Core Checked

section Stores

variable {Document Call Arguments Saved Answer : Type} (store : Store Document Call Arguments Saved Answer)

-- The document that a call writes over the file it finds.
def Saves (call : Call) (file : Option Bytes) (document : Document) : Prop :=
  ∃ arguments base saved, store.check call = .ok arguments ∧ loaded store file = .ok base ∧
    store.change arguments base = .ok (document, saved) ∧ store.validate document = .ok ()

-- One operation: what it found, what came of it and what it left.
structure Turn (Call Answer : Type) where
  before : ConfigState
  issued : Call × Draws
  outcome : Except ConfigError Answer
  after : ConfigState

def Turn.Accepted (turn : Turn Call Answer) : Prop := ∃ answer, turn.outcome = .ok answer

-- Operations one after the other, whatever comes of each.
inductive Session : ConfigState → List (Turn Call Answer) → ConfigState → Prop where
  | nil (state : ConfigState) : Session state [] state
  | cons (turn : Turn Call Answer) (turns : List (Turn Call Answer)) (last : ConfigState)
      (ran : (program store turn.issued).exec turn.before = (turn.outcome, turn.after)) (rest : Session turn.after turns last) :
      Session turn.before (turn :: turns) last

def Readable (state : ConfigState) : Prop := ∃ document, loaded store state.file = .ok document

-- The next load takes the file that the operation wrote, and finds what was saved in it.
def Reloads (settle : Document → Document) (turn : Turn Call Answer) : Prop :=
  ∃ document, Saves store turn.issued.1 turn.before.file document ∧ turn.after.file = some (store.encode document) ∧
    loaded store turn.after.file = .ok (settle document)

def Fits (limit : Nat) (turn : Turn Call Answer) : Prop :=
  ∀ document, Saves store turn.issued.1 turn.before.file document → (store.encode document).length ≤ limit

-- Of what `save` accepts, `load` refuses what is too long and nothing else.
def Rereads (limit : Nat) (settle : Document → Document) : Prop :=
  ∀ document other, store.validate document = .ok () →
    (store.decode (store.encode document) = .ok other ↔ (store.encode document).length ≤ limit ∧ other = settle document)

variable {store}

theorem saves_unique (call : Call) (file : Option Bytes) (one other : Document) (first : Saves store call file one)
    (second : Saves store call file other) : one = other := by
  obtain ⟨_, _, _, checked, read, changes, _⟩ := first
  obtain ⟨_, _, _, checked', read', changes', _⟩ := second
  rw [checked, Except.ok.injEq] at checked'
  rw [read, Except.ok.injEq] at read'
  rw [← checked', ← read', changes, Except.ok.injEq, Prod.mk.injEq] at changes'
  exact changes'.1

theorem renamed_file (draws : Draws) (present : Bool) (bytes : Bytes) (middle gone last : ConfigState)
    (written : middle.temporaries[draws.temporary]? = some bytes)
    (removes : (removeOld draws present).exec middle = (.ok (), gone))
    (renames : (operate draws .rename "rename" (renameTemporary draws)).exec gone = (.ok (), last)) : last.file = some bytes := by
  have kept : gone.temporaries = middle.temporaries := by
    unfold removeOld at removes
    split at removes
    · have ran := ((exec_operate_ok _ _ _ _ _ _ _).mp removes).2
      simp only [removeFile, bind_ok, pure_ok] at ran
      obtain ⟨_, _, rfl⟩ := ran
      rfl
    · cases removes
      rfl
  have ran := ((exec_operate_ok _ _ _ _ _ _ _).mp renames).2
  simp only [renameTemporary, bind_ok, found_ok, pure_ok, kept, written, Option.some.injEq] at ran
  obtain ⟨_, rfl, _, _, rfl⟩ := ran
  rfl

theorem kept_exec {α : Type} (prog : Action α) (keeps : prog.Acts KeepsFile) (state : ConfigState) :
    (prog.exec state).2.file = state.file := by
  induction prog generalizing state with
  | ret value => rfl
  | fail error => rfl
  | act step rest ih =>
      have own : (step state).2.file = state.file := (keeps state).1
      exact (ih _ (keeps state).2 _).trans own

theorem operated_exec (draws : Draws) (operation : Operation) (name : String) (run : ConfigState → Except ConfigError ConfigState)
    (state : ConfigState) (error : ConfigError) (after : ConfigState)
    (fails : (operate draws operation name run).exec state = (.error error, after)) : after = state := by
  rw [operate, Prog.transact, Prog.exec, Prog.exec_of_except, Prog.attemptStep] at fails
  cases outcome : attempt draws operation name run state with
  | error reason =>
      rw [outcome] at fails
      cases fails
      rfl
  | ok pair =>
      rw [outcome] at fails
      cases fails

theorem removed_exec (draws : Draws) (present : Bool) (state after : ConfigState) (result : Except ConfigError Unit)
    (removes : (removeOld draws present).exec state = (result, after)) : after.file = state.file ∨ after.file = none := by
  unfold removeOld at removes
  split at removes
  · cases result with
    | error error => exact .inl (by rw [operated_exec _ _ _ _ _ _ _ removes])
    | ok _ =>
        have ran := ((exec_operate_ok _ _ _ _ _ _ _).mp removes).2
        simp only [removeFile, bind_ok, pure_ok] at ran
        obtain ⟨_, _, rfl⟩ := ran
        exact .inr rfl
  · cases removes
    exact .inl rfl

-- What an operation leaves in place of the file, whatever comes of it.
theorem left_file (issued : Call × Draws) (state : ConfigState) :
    ((program store issued).exec state).2.file = state.file ∨ ((program store issued).exec state).2.file = none ∨
      ∃ bytes, perform store issued.1 state.file = .ok bytes ∧ ((program store issued).exec state).2.file = some bytes := by
  rw [program, Prog.exec_bind]
  have prepared := kept_exec _ (prepare_keeps store issued.1 issued.2) state
  cases first : (prepare store issued.1 issued.2).exec state with
  | mk result middle =>
      rw [first] at prepared
      cases result with
      | error error => exact .inl prepared
      | ok ready =>
          obtain ⟨performed, _, written, _⟩ := prepare_ready store issued.1 issued.2 state middle ready first
          dsimp only
          rw [Prog.exec_bind]
          cases second : (removeOld issued.2 ready.present).exec middle with
          | mk result gone =>
              have emptied := removed_exec issued.2 ready.present middle gone result second
              cases result with
              | error error => exact emptied.imp (fun same => same.trans prepared) .inl
              | ok _ =>
                  dsimp only
                  rw [Prog.exec_bind]
                  cases third : (operate issued.2 .rename "rename" (renameTemporary issued.2)).exec gone with
                  | mk result placed =>
                      cases result with
                      | error error =>
                          rw [← operated_exec _ _ _ _ _ _ _ third] at emptied
                          exact emptied.imp (fun same => same.trans prepared) .inl
                      | ok _ =>
                          have finished := kept_exec _ (finish_keeps store issued.2 ready.saved) placed
                          exact .inr (.inr ⟨_, performed,
                            finished.trans (renamed_file issued.2 ready.present _ middle gone placed written second third)⟩)

theorem accepted_saves (turn : Turn Call Answer) (ran : (program store turn.issued).exec turn.before = (turn.outcome, turn.after))
    (accepted : turn.Accepted) :
    ∃ document, Saves store turn.issued.1 turn.before.file document ∧ turn.after.file = some (store.encode document) ∧
      ((∀ saved, ∃ view, store.answer saved = .inr view) → Readable store turn.after) := by
  obtain ⟨answer, outcome⟩ := accepted
  rw [outcome] at ran
  obtain ⟨ready, middle, prepared, ran⟩ := (Prog.exec_bind_ok _ _ _ _ _).mp ran
  obtain ⟨_, gone, removes, ran⟩ := (Prog.exec_bind_ok _ _ _ _ _).mp ran
  obtain ⟨_, placed, renames, finishes⟩ := (Prog.exec_bind_ok _ _ _ _ _).mp ran
  obtain ⟨performed, _, written, _⟩ := prepare_ready store turn.issued.1 turn.issued.2 turn.before middle ready prepared
  obtain ⟨arguments, base, changed, checked, read, changes, valid, same⟩ := perform_loaded store _ _ _ performed
  have file := renamed_file turn.issued.2 ready.present _ middle gone placed written removes renames
  have still : turn.after.file = placed.file ∧ ((∀ saved, ∃ view, store.answer saved = .inr view) → Readable store turn.after) := by
    unfold finish at finishes
    cases answers : store.answer ready.saved with
    | inl value =>
        rw [answers] at finishes
        cases finishes
        refine ⟨rfl, fun views => ?_⟩
        obtain ⟨view, other⟩ := views ready.saved
        rw [answers] at other
        cases other
    | inr view =>
        simp only [answers, Prog.exec_map, load, Prog.exec_read, Prod.mk.injEq] at finishes
        obtain ⟨answered, rfl⟩ := finishes
        refine ⟨rfl, fun _ => ?_⟩
        cases reread : loaded store turn.after.file with
        | ok document => exact ⟨document, reread⟩
        | error error =>
            rw [reread] at answered
            cases refused : turn.issued.2.refused .reload <;> rw [refused] at answered <;> cases answered
  refine ⟨changed.1, ⟨arguments, base, changed.2, (map_error_ok _ _ _).mp checked, read, (map_error_ok _ _ _).mp changes,
    (map_error_ok _ _ _).mp valid⟩, ?_, still.2⟩
  rw [still.1, file, same]

variable {limit : Nat} {settle : Document → Document}

theorem loaded_saved (rereads : Rereads store limit settle) (document : Document) (valid : store.validate document = .ok ()) :
    loaded store (some (store.encode document)) = .ok (settle document) ↔ (store.encode document).length ≤ limit := by
  rw [loaded, map_error_ok, rereads document _ valid]
  exact and_iff_left rfl

-- One operation that returned: the next load takes its file exactly when it fits.
theorem turn_reloads_iff (rereads : Rereads store limit settle) (turn : Turn Call Answer)
    (ran : (program store turn.issued).exec turn.before = (turn.outcome, turn.after)) (accepted : turn.Accepted) :
    Reloads store settle turn ↔ Fits store limit turn := by
  obtain ⟨document, saves, file, _⟩ := accepted_saves turn ran accepted
  have valid : store.validate document = .ok () := by
    obtain ⟨_, _, _, _, _, _, valid⟩ := saves
    exact valid
  constructor
  · rintro ⟨other, again, _, reread⟩ one first
    rw [saves_unique _ _ one document first saves]
    rw [file, saves_unique _ _ other document again saves] at reread
    exact (loaded_saved rereads document valid).mp reread
  · intro fits
    refine ⟨document, saves, file, ?_⟩
    rw [file]
    exact (loaded_saved rereads document valid).mpr (fits document saves)

-- A store whose operations read their file back fails by itself when it cannot.
theorem turn_read_back (rereads : Rereads store limit settle) (views : ∀ saved, ∃ view, store.answer saved = .inr view)
    (turn : Turn Call Answer) (ran : (program store turn.issued).exec turn.before = (turn.outcome, turn.after))
    (accepted : turn.Accepted) :
    Reloads store settle turn := by
  obtain ⟨document, saves, file, readable⟩ := accepted_saves turn ran accepted
  obtain ⟨other, reread⟩ := readable views
  have found := reread
  have valid : store.validate document = .ok () := by
    obtain ⟨_, _, _, _, _, _, valid⟩ := saves
    exact valid
  rw [file, loaded, map_error_ok, rereads document other valid] at found
  exact ⟨document, saves, file, by rw [reread, found.2]⟩

theorem session_each (start last : ConfigState) (turns : List (Turn Call Answer)) (session : Session store start turns last) :
    ∀ turn ∈ turns, (program store turn.issued).exec turn.before = (turn.outcome, turn.after) := by
  induction session with
  | nil state => exact List.forall_mem_nil _
  | cons turn turns last ran rest ih => exact List.forall_mem_cons.mpr ⟨ran, ih⟩

-- In a sequence of operations that returned, what is readable stays readable.
theorem session_readable (start last : ConfigState) (turns : List (Turn Call Answer)) (session : Session store start turns last)
    (reloads : ∀ turn ∈ turns, Reloads store settle turn) (readable : Readable store start) : Readable store last := by
  induction session with
  | nil state => exact readable
  | cons turn turns last ran rest ih =>
      obtain ⟨one, others⟩ := List.forall_mem_cons.mp reloads
      obtain ⟨document, _, _, reread⟩ := one
      exact ih others ⟨settle document, reread⟩

end Stores

section Legacy

abbrev RuleKey := WorkspaceScope × List Char

def rulesOf (key : RuleKey) (mappings : List WorkspaceMappingRule) : List WorkspaceMappingRule :=
  mappings.filter fun mapping => mappingKey mapping = key

theorem rules_own (key : RuleKey) (mapping : WorkspaceMappingRule) (rest : List WorkspaceMappingRule)
    (own : mappingKey mapping = key) :
    rulesOf key (mapping :: rest) = mapping :: rulesOf key rest := List.filter_cons_of_pos (decide_eq_true own)

theorem rules_other (key : RuleKey) (mapping : WorkspaceMappingRule) (rest : List WorkspaceMappingRule)
    (other : mappingKey mapping ≠ key) :
    rulesOf key (mapping :: rest) = rulesOf key rest := List.filter_cons_of_neg (by simp [other])

theorem retain_rules (collapses : RuleKey → Bool) (seen : List RuleKey) (mappings : List WorkspaceMappingRule) (key : RuleKey) :
    rulesOf key (retainFirst collapses seen mappings) =
      if collapses key = true then (if key ∈ seen then [] else (rulesOf key mappings).take 1) else rulesOf key mappings := by
  induction mappings generalizing seen with
  | nil => simp [retainFirst, rulesOf]
  | cons mapping rest ih =>
      rw [retainFirst]
      by_cases own : mappingKey mapping = key
      · by_cases collapsed : collapses key = true
        · by_cases known : key ∈ seen
          · rw [own, if_pos collapsed, if_pos known, ih seen, if_pos collapsed, if_pos known, if_pos collapsed, if_pos known]
          · rw [own, if_pos collapsed, if_neg known, if_pos collapsed, if_neg known, rules_own key mapping _ own,
              rules_own key mapping _ own, ih (key :: seen), if_pos collapsed, if_pos List.mem_cons_self]
            rfl
        · rw [own, if_neg collapsed, if_neg collapsed, rules_own key mapping _ own, rules_own key mapping _ own, ih seen,
            if_neg collapsed]
      · have added : (key ∈ mappingKey mapping :: seen) = (key ∈ seen) := by simp [Ne.symm own]
        rw [rules_other key mapping rest own]
        split
        · split
          · exact ih seen
          · rw [rules_other key mapping _ own, ih (mappingKey mapping :: seen)]
            simp only [added]
        · rw [rules_other key mapping _ own, ih seen]

-- Where some rules of a prefix are told apart only by the older normal form, the first of
-- them stays.
theorem deduplicate_rules (mappings : List WorkspaceMappingRule) (key : RuleKey) :
    rulesOf key (deduplicateLegacyVerbatimRemoteRules mappings) =
      if collapsible mappings key = true then (rulesOf key mappings).take 1 else rulesOf key mappings := by
  rw [deduplicateLegacyVerbatimRemoteRules, retain_rules]
  simp

theorem retain_none (collapses : RuleKey → Bool) (seen : List RuleKey) (mappings : List WorkspaceMappingRule)
    (none : ∀ mapping ∈ mappings, collapses (mappingKey mapping) = false) : retainFirst collapses seen mappings = mappings := by
  induction mappings with
  | nil => rfl
  | cons mapping rest ih =>
      rw [retainFirst, none mapping List.mem_cons_self, ih fun other member => none other (List.mem_cons_of_mem _ member)]
      rfl

theorem deduplicate_again (mappings : List WorkspaceMappingRule) :
    deduplicateLegacyVerbatimRemoteRules (deduplicateLegacyVerbatimRemoteRules mappings) =
      deduplicateLegacyVerbatimRemoteRules mappings := by
  have settled : ∀ key, collapsible (deduplicateLegacyVerbatimRemoteRules mappings) key = false := by
    intro key
    rw [collapsible, decide_eq_false_iff_not]
    rintro ⟨one, oneIn, other, otherIn, sameOne, sameOther, apart⟩
    have first : one ∈ rulesOf key (deduplicateLegacyVerbatimRemoteRules mappings) :=
      List.mem_filter.mpr ⟨oneIn, decide_eq_true sameOne⟩
    have second : other ∈ rulesOf key (deduplicateLegacyVerbatimRemoteRules mappings) :=
      List.mem_filter.mpr ⟨otherIn, decide_eq_true sameOther⟩
    rw [deduplicate_rules] at first second
    by_cases collapses : collapsible mappings key = true
    · rw [if_pos collapses] at first second
      cases rules : rulesOf key mappings with
      | nil =>
          rw [rules] at first
          cases first
      | cons head rest =>
          rw [rules, List.take_succ_cons, List.take_zero, List.mem_singleton] at first second
          exact apart (by rw [first, second])
    · rw [if_neg collapses] at first second
      refine collapses (decide_eq_true ⟨one, (List.mem_filter.mp first).1, other, (List.mem_filter.mp second).1, sameOne,
        sameOther, apart⟩)
  exact retain_none _ [] _ fun mapping _ => settled (mappingKey mapping)

end Legacy

section Stored

variable (lib : Primitives) (namespaces : Serde NamespaceMappingFile) (workspaces : Serde WorkspaceMappingFile)

theorem namespaces_reread (faithful : namespaces.Faithful) :
    Rereads (namespaceMappingStore lib namespaces) namespaceConfigBytes id := by
  intro document other valid
  have valid : validateMappingFile lib document = .ok () := valid
  simp only [namespaceMappingStore, decodeNamespaces, bind_ok, ensure_ok, pure_ok, faithful document, Except.ok.injEq, id]
  constructor
  · rintro ⟨_, fits, read, rfl, _, _, rfl⟩
    exact ⟨fits, rfl⟩
  · rintro ⟨fits, rfl⟩
    exact ⟨(), fits, _, rfl, (), valid, rfl⟩

def settleLegacy (file : WorkspaceMappingFile) : WorkspaceMappingFile :=
  { file with mappings := deduplicateLegacyVerbatimRemoteRules file.mappings }

theorem workspaces_reread (faithful : workspaces.Faithful) :
    Rereads (workspaceMappingStore lib workspaces) workspaceConfigBytes settleLegacy := by
  intro document other valid
  have valid : validateFile lib document = .ok () := valid
  simp only [workspaceMappingStore, decodeWorkspaces, bind_ok, ensure_ok, pure_ok, faithful document, Except.ok.injEq]
  constructor
  · rintro ⟨_, fits, read, rfl, _, _, rfl⟩
    exact ⟨fits, rfl⟩
  · rintro ⟨fits, rfl⟩
    exact ⟨(), fits, document, rfl, (), valid, rfl⟩

theorem saved_configurations_read (namespacesRead : namespaces.Faithful) (workspacesRead : workspaces.Faithful) :
    (∀ start last turns, Session (workspaceMappingStore lib workspaces) start turns last →
      (∀ turn ∈ turns, turn.Accepted → Reloads (workspaceMappingStore lib workspaces) settleLegacy turn) ∧
      (Readable (workspaceMappingStore lib workspaces) start → (∀ turn ∈ turns, turn.Accepted) →
        Readable (workspaceMappingStore lib workspaces) last)) ∧
    (∀ start last turns, Session (namespaceMappingStore lib namespaces) start turns last →
      ((∀ turn ∈ turns, turn.Accepted → Reloads (namespaceMappingStore lib namespaces) id turn) ↔
        ∀ turn ∈ turns, turn.Accepted → Fits (namespaceMappingStore lib namespaces) namespaceConfigBytes turn) ∧
      (Readable (namespaceMappingStore lib namespaces) start →
        (∀ turn ∈ turns, turn.Accepted ∧ Fits (namespaceMappingStore lib namespaces) namespaceConfigBytes turn) →
          Readable (namespaceMappingStore lib namespaces) last)) ∧
    ∀ mappings, deduplicateLegacyVerbatimRemoteRules (deduplicateLegacyVerbatimRemoteRules mappings) =
        deduplicateLegacyVerbatimRemoteRules mappings ∧
      ∀ key, rulesOf key (deduplicateLegacyVerbatimRemoteRules mappings) =
        if collapsible mappings key = true then (rulesOf key mappings).take 1 else rulesOf key mappings := by
  have rereads := namespaces_reread lib namespaces namespacesRead
  have views : ∀ saved, ∃ view, (workspaceMappingStore lib workspaces).answer saved = .inr view := fun saved => ⟨_, rfl⟩
  have back := fun turn ran accepted => turn_read_back (workspaces_reread lib workspaces workspacesRead) views turn ran accepted
  refine ⟨fun start last turns session => ?_, fun start last turns session => ?_, fun mappings =>
    ⟨deduplicate_again mappings, deduplicate_rules mappings⟩⟩
  · have each := session_each start last turns session
    exact ⟨fun turn member accepted => back turn (each turn member) accepted,
      fun readable accepted => session_readable start last turns session
        (fun turn member => back turn (each turn member) (accepted turn member)) readable⟩
  · have each := session_each start last turns session
    refine ⟨forall₂_congr fun turn member => forall_congr' fun accepted => turn_reloads_iff rereads turn (each turn member) accepted,
      fun readable all => ?_⟩
    have reloads : ∀ turn ∈ turns, Reloads (namespaceMappingStore lib namespaces) id turn := fun turn member =>
      (turn_reloads_iff rereads turn (each turn member) (all turn member).1).mpr (all turn member).2
    exact session_readable start last turns session reloads readable

end Stored

namespace ReadableSample

open Sample

def longKey : String := String.ofList (List.replicate (2 ^ 20) 'a')

def overrideCall (key : String) : NamespaceCall := .setManualOverride home work key "2026-01-01T00:00:00Z"

def overrideFile (key : String) : NamespaceMappingFile :=
  { schemaVersion := 1, mappings := []
    overrides := [{ remoteId := home, namespaceId := work, codexHomeKey := key, updatedAt := "2026-01-01T00:00:00Z" }] }

-- The JSON of the file, around the bytes of the key.
def overrideJson (key : Bytes) : Bytes :=
  bytesOf ["\x7b", "  \"schemaVersion\": 1,", "  \"mappings\": [],", "  \"overrides\": [", "    \x7b",
    "      \"remoteId\": \"01900000-0000-7000-8000-000000000001\",",
      "      \"namespaceId\": \"01900000-0000-7000-8000-000000000002\",",
    "      \"codexHomeKey\": \""] ++ key ++
  bytesOf ["\",", "      \"updatedAt\": \"2026-01-01T00:00:00Z\"", "    \x7d", "  ]", "\x7d"]

def overrideSerde (key : String) (bytes : Bytes) : Serde NamespaceMappingFile := serdeOf (overrideFile key) (overrideJson bytes)

theorem override_faithful (key : String) (bytes : Bytes) : (overrideSerde key bytes).Faithful := by
  refine serde_faithful _ _ fun starts => ?_
  have opening : (overrideJson bytes).head? = some 123 := by
    rw [overrideJson, List.append_assoc, List.head?_append_of_ne_nil _ (by decide +kernel)]
    decide +kernel
  rw [opening] at starts
  exact absurd starts (by decide)

theorem override_performed (key : String) (bytes : Bytes) (known : validatePathMatcher key = .ok key) :
    perform (namespaceMappingStore sampleLib (overrideSerde key bytes)) (overrideCall key) none = .ok (overrideJson bytes) := by
  have remote : validateUuidV7 home "remote" = .ok () := rfl
  have space : validateUuidV7 work "namespace" = .ok () := rfl
  have checked : checkNamespace (overrideCall key) = .ok (overrideCall key) := by
    rw [overrideCall, checkNamespace, remote, space, known]
    rfl
  have valid : validateMappingFile sampleLib (overrideFile key) = .ok () := by
    simp only [validateMappingFile, overrideFile, validateMappings, validateOverrides, remote, space, known]
    rfl
  have printed : (overrideSerde key bytes).print (overrideFile key) = overrideJson bytes :=
    by simp only [overrideSerde, serdeOf, if_true]
  simp only [perform, namespaceMappingStore, checked, loaded]
  change ((validateMappingFile sampleLib (overrideFile key)).mapError ConfigError.invalid >>= fun _ =>
    .ok ((overrideSerde key bytes).print (overrideFile key))) = _
  rw [valid, printed]
  rfl

theorem override_accepted (key : String) (bytes : Bytes) (known : validatePathMatcher key = .ok key) :
    ∃ answer after, (program (namespaceMappingStore sampleLib (overrideSerde key bytes)) (overrideCall key, drawsOf 1)).exec empty =
      (.ok answer, after) ∧
      after.file = some (overrideJson bytes) := by
  obtain ⟨answer, ends⟩ :=
    call_exec (namespaceMappingStore sampleLib (overrideSerde key bytes)) (overrideCall key) (drawsOf 1) empty _
    (override_performed key bytes known) (fun _ => rfl) rfl rfl fun saved => ⟨saved, fun _ _ => rfl⟩
  exact ⟨answer, _, ends, rfl⟩

theorem long_key_known : validatePathMatcher longKey = .ok longKey := by
  have text : longKey.toList = List.replicate (2 ^ 20) 'a' := String.toList_ofList
  have solid : Server.trim longKey ≠ [] := by
    have kept : ∀ count, (List.replicate count 'a').dropWhile isWhitespace = List.replicate count 'a' := by
      intro count
      cases count with
      | zero => rfl
      | succ count => rw [List.replicate_succ, List.dropWhile_cons_of_neg (by decide)]
    rw [Server.trim, text, kept, List.reverse_replicate, kept, List.reverse_replicate]
    exact List.ne_nil_of_length_pos (by rw [List.length_replicate]; decide)
  have plain : longKey.toList.any Server.isControl = false := by
    rw [text, List.any_eq_false]
    intro c member
    rw [List.eq_of_mem_replicate member]
    decide
  simp only [validatePathMatcher, bind_ok, ensure_ok, pure_ok]
  exact ⟨(), ⟨solid, plain⟩, trivial⟩

theorem override_longer (key : Bytes) : key.length < (overrideJson key).length := by
  have trailer : 0 < (bytesOf ["\",", "      \"updatedAt\": \"2026-01-01T00:00:00Z\"", "    \x7d", "  ]", "\x7d"]).length :=
    by decide +kernel
  rw [overrideJson, List.length_append, List.length_append]
  omega

-- The call returns, and what it wrote is refused.
theorem long_override_unreadable : (overrideSerde longKey (List.replicate (2 ^ 20) 97)).Faithful ∧
    ∃ answer after, (program (namespaceMappingStore sampleLib (overrideSerde longKey (List.replicate (2 ^ 20) 97)))
      (overrideCall longKey, drawsOf 1)).exec
        empty = (.ok answer, after) ∧
      ∀ document, loaded (namespaceMappingStore sampleLib
        (overrideSerde longKey (List.replicate (2 ^ 20) 97))) after.file ≠ .ok document := by
  refine ⟨override_faithful _ _, ?_⟩
  obtain ⟨answer, after, ran, file⟩ := override_accepted longKey (List.replicate (2 ^ 20) 97) long_key_known
  refine ⟨answer, after, ran, fun document read => ?_⟩
  rw [file, loaded, map_error_ok] at read
  simp only [namespaceMappingStore, decodeNamespaces, bind_ok, ensure_ok] at read
  obtain ⟨_, fits, _⟩ := read
  have longer := override_longer (List.replicate (2 ^ 20) 97)
  rw [List.length_replicate] at longer
  rw [namespaceConfigBytes] at fits
  omega

theorem short_override_reads : ∃ answer after,
    (program (namespaceMappingStore sampleLib (overrideSerde "/home" (bytesOf ["/home"])))
      (overrideCall "/home", drawsOf 1)).exec empty =
        (.ok answer, after) ∧
      Readable (namespaceMappingStore sampleLib (overrideSerde "/home" (bytesOf ["/home"]))) after := by
  obtain ⟨answer, after, ran, file⟩ := override_accepted "/home" (bytesOf ["/home"]) (by decide +kernel)
  have faithful := override_faithful "/home" (bytesOf ["/home"])
  have laws := (saved_configurations_read sampleLib _ workspaceSerde faithful (serde_faithful _ _ (by decide +kernel))).2.1
  let turn : Turn NamespaceCall (Option NamespaceMappingRule) := ⟨empty, (overrideCall "/home", drawsOf 1), .ok answer, after⟩
  refine ⟨answer, after, ran, (laws empty after [turn] (.cons turn [] after ran (.nil after))).2 ⟨_, rfl⟩ ?_⟩
  refine List.forall_mem_singleton.mpr ⟨⟨answer, rfl⟩, fun document saves => ?_⟩
  obtain ⟨other, again, stored, _⟩ := accepted_saves turn ran ⟨answer, rfl⟩
  have same : some (overrideJson (bytesOf ["/home"])) = some ((overrideSerde "/home" (bytesOf ["/home"])).print other) :=
    file.symm.trans stored
  rw [saves_unique _ _ document other saves again]
  change ((overrideSerde "/home" (bytesOf ["/home"])).print other).length ≤ _
  rw [← Option.some.inj same]
  decide +kernel

end ReadableSample

end SessionSync.Config
