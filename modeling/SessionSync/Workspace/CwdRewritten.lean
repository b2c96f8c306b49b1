import SessionSync.Workspace.CwdExact

set_option autoImplicit false

namespace SessionSync.Workspace

open SessionSync.Core Checked Rollout

variable {lex : Lexicon} {reader : Reader} {strings : Bytes → Except String String}

variable (reader strings) in
-- One literal of the line was exchanged, and nothing else of the line and of its value.
structure CwdRewritten (line : Bytes) (threadId targetCwd : String) (written : Bytes) (value : Value) (payload : Fields) (cwd : Value)
    (front old new back : Bytes) : Prop where
  parsed : reader.parse (jsonOf line) = .ok value
  object : payloadOf value = some payload
  held : fieldOf payload "cwd" = some cwd
  before : line = front ++ (old ++ back)
  after : written = front ++ (new ++ back)
  was : reader.parse old = .ok cwd
  became : strings new = .ok targetCwd
  replaced : reader.parse (jsonOf written) = .ok (replacePayload value (insertField "cwd" (.string targetCwd) payload))
  restored : ∀ path, cwd = .string path → old = utf8 (writeString path) →
    rewriteSessionMetaCwd strings reader written threadId path = .ok line

variable (reader strings) in
-- What is promised of a line: the rewritten line is right, and a line whose cwd is a
-- string can be rewritten.
structure RewritesCwd (line : Bytes) (threadId targetCwd : String) : Prop where
  right : ∀ written, rewriteSessionMetaCwd strings reader line threadId targetCwd = .ok written →
    ∃ value payload cwd front old new back,
      CwdRewritten reader strings line threadId targetCwd written value payload cwd front old new back
  total : ∀ value payload path, reader.parse (jsonOf line) = .ok value → isSessionMeta value = true → payloadOf value = some payload →
    (fieldOf payload "id").bind Value.asStr = some threadId → fieldOf payload "cwd" = some (.string path) →
    ∃ written, rewriteSessionMetaCwd strings reader line threadId targetCwd = .ok written

variable (lex) in
-- No repeated key hides the cwd that serde_json keeps from the scanner, which stops at the
-- first; or the cwd is the target already; or neither of them sees a cwd to rewrite.
def Unshadowed (targetCwd : String) (tree : JsonText) : Prop :=
  let payloads := valuesOf lex "payload" (membersOf tree)
  ∀ first kept, payloads.head? = some first → payloads.getLast? = some kept →
    let cwds := valuesOf lex "cwd" (membersOf kept)
    cwds.getLast?.map (JsonText.value lex) = some (.string targetCwd) ∨
      (payloads.length = 1 ∧ cwds.length = 1) ∨
      ((cwds.getLast?.map (JsonText.value lex)).bind Value.asStr = none ∧ valuesOf lex "cwd" (membersOf first) = [])

theorem object_of (value : JsonText) (fields : Fields) (object : value.value lex = .object fields) :
    ∃ members blank, value = .object members blank := by
  cases value with
  | object members blank => exact ⟨members, blank, rfl⟩
  | word word => cases word <;> cases object
  | number token =>
      rw [JsonText.value] at object
      cases read : lex.number token <;> rw [read] at object <;> cases object
  | string body =>
      rw [JsonText.value] at object
      cases read : lex.string body <;> rw [read] at object <;> cases object
  | array elements blank => cases object

theorem string_of (value : JsonText) (text : String) (string : value.value lex = .string text) :
    ∃ body, value = .string body ∧ lex.string body = some text := by
  cases value with
  | string body =>
      rw [JsonText.value] at string
      cases read : lex.string body with
      | none =>
          rw [read] at string
          cases string
      | some other =>
          rw [read, Option.map_some, Option.getD_some, Value.string.injEq] at string
          exact ⟨body, rfl, by rw [read, string]⟩
  | word word => cases word <;> cases string
  | number token =>
      rw [JsonText.value] at string
      cases read : lex.number token <;> rw [read] at string <;> cases string
  | array elements blank => cases string
  | object members blank => cases string

variable (lex) in
-- The record of a session, and the payload that serde_json keeps.
structure KeptPayload (tree : JsonText) (payload : Fields) (members : Members) (blank : Bytes) (kept : Members)
    (gap : Bytes) : Prop where
  tree : tree = .object members blank
  last : (valuesOf lex "payload" members).getLast? = some (.object kept gap)
  payload : payload = membersValue lex kept []

theorem session_kept (line : Bytes) (threadId : String) (tree : JsonText) (payload : Fields)
    (session : SessionLine lex line threadId tree payload) :
    ∃ members blank kept gap, KeptPayload lex tree payload members blank kept gap := by
  have object := session.object
  rw [payloadOf, get_values] at object
  obtain ⟨value, held, fields⟩ := Option.bind_eq_some_iff.mp object
  obtain ⟨last, found, same⟩ := Option.map_eq_some_iff.mp held
  have inner : value = .object payload := by
    cases value with
    | object other =>
        rw [asObject, Option.some.injEq] at fields
        rw [fields]
    | _ => cases fields
  obtain ⟨kept, gap, rfl⟩ := object_of last payload (same.trans inner)
  have payloads : payload = membersValue lex kept [] := by
    rw [inner, JsonText.value, Value.object.injEq] at same
    exact same.symm
  cases tree with
  | object members blank => exact ⟨members, blank, kept, gap, rfl, found, payloads⟩
  | _ => cases found

theorem fill_cwd (place : CwdPlace) (named : place.Named lex) (last : place.Last lex) (cwd : JsonText) :
    fieldOf (membersValue lex (place.payload cwd) []) "cwd" = some (cwd.value lex) := by
  have values : valuesOf lex "cwd" (place.payload cwd) = valuesOf lex "cwd" place.first ++ [cwd] := by
    rw [CwdPlace.payload, values_append, values_cons, if_pos named.cwd, last.cwd, List.append_nil]
  rw [field_members, values, List.getLast?_concat]
  rfl

theorem kept_place (members kept : Members) (blank gap : Bytes)
    (last : (valuesOf lex "payload" members).getLast? = some (.object kept gap)) (cwd : JsonText)
    (held : (valuesOf lex "cwd" kept).getLast? = some cwd) :
    ∃ place : CwdPlace, place.Named lex ∧ place.Last lex ∧ place.fill cwd = .object members blank ∧ place.payload cwd = kept ∧
      place.gap = gap := by
  obtain ⟨before, label, behind, outer, payload, none⟩ := last_value _ _ _ last
  obtain ⟨first, field, later, inner, name, absent⟩ := last_value _ _ _ held
  refine ⟨⟨before, label, behind, blank, first, field, later, gap⟩, ⟨payload, name⟩, ⟨none, absent⟩, ?_, inner.symm, rfl⟩
  rw [CwdPlace.fill, CwdPlace.members, CwdPlace.payload, ← inner, ← outer]

theorem once_first (place : CwdPlace) (named : place.Named lex) (last : place.Last lex) (cwd : JsonText)
    (payloads : (valuesOf lex "payload" (place.members cwd)).length = 1)
    (cwds : (valuesOf lex "cwd" (place.payload cwd)).length = 1) :
    place.First lex := by
  rw [CwdPlace.members, values_append, values_cons, if_pos named.payload, last.payload, List.append_nil, List.length_append,
    List.length_singleton] at payloads
  rw [CwdPlace.payload, values_append, values_cons, if_pos named.cwd, last.cwd, List.append_nil, List.length_append,
    List.length_singleton] at cwds
  exact ⟨List.length_eq_zero_iff.mp (by omega), List.length_eq_zero_iff.mp (by omega)⟩

theorem parse_value (json : ReadsJson lex reader strings) (value : JsonText) (room : Nat) (fits : room ≤ recursionLimit)
    (valid : value.Valid lex room) : reader.parse value.text = .ok (value.value lex) :=
  (json.value _ _).mpr ⟨value, ⟨valid_mono value room recursionLimit fits valid, [], [], fun _ none => absurd none List.not_mem_nil,
    fun _ none => absurd none List.not_mem_nil, (List.append_nil _).symm⟩, rfl⟩

theorem fill_session (place : CwdPlace) (named : place.Named lex) (last : place.Last lex) (line written : Bytes) (threadId : String)
    (old new : JsonText) (session : SessionLine lex line threadId (place.fill old) (membersValue lex (place.payload old) []))
    (reads : Reads lex (jsonOf written) (place.fill new)) :
    SessionLine lex written threadId (place.fill new) (membersValue lex (place.payload new) []) := by
  have whole := fill_value place named last old new
  have inner := replaced_fields "cwd" place.first place.last place.field old new named.cwd last.cwd
  refine ⟨reads, ?_, fill_payload place named last new, ?_⟩
  · have typed : get ((place.fill new).value lex) "type" = get ((place.fill old).value lex) "type" := by
      rw [whole]
      exact (field_insert "payload" "type" _ _).trans (if_neg (by decide))
    rw [isSessionMeta, typed]
    exact session.isMeta
  · have id := session.named
    rw [CwdPlace.payload] at id ⊢
    rw [inner, field_insert, if_neg (by decide)]
    exact id

-- A cwd that is the target already stays as it is written.
theorem rewritten_same (json : ReadsJson lex reader strings) (place : CwdPlace) (named : place.Named lex) (last : place.Last lex)
    (line pre after ending : Bytes) (threadId targetCwd : String) (cwd : JsonText) (target : cwd.value lex = .string targetCwd)
    (session : SessionLine lex line threadId (place.fill cwd) (membersValue lex (place.payload cwd) []))
    (laid : Laid line pre (place.fill cwd) after ending) :
    CwdRewritten reader strings line threadId targetCwd line ((place.fill cwd).value lex) (membersValue lex (place.payload cwd) [])
      (.string targetCwd) (pre ++ place.front) cwd.text cwd.text (place.back ++ (after ++ ending)) := by
  obtain ⟨body, rfl, read⟩ := string_of cwd targetCwd target
  have held := fill_cwd place named last (.string body)
  rw [target] at held
  have parsed : reader.parse (jsonOf line) = .ok ((place.fill (.string body)).value lex) :=
    (json.value _ _).mpr ⟨_, session.reads, rfl⟩
  have whole : line = (pre ++ place.front) ++ ((JsonText.string body).text ++ (place.back ++ (after ++ ending))) := by
    rw [laid.whole, CwdPlace.fill_text]
    simp only [List.append_assoc]
  have valid : (JsonText.string body).Valid lex recursionLimit := ⟨targetCwd, read⟩
  refine ⟨parsed, session.object, held, whole, whole, ?_, ?_, ?_, ?_⟩
  · rw [← target]
    exact parse_value json _ recursionLimit (Nat.le_refl _) valid
  · rw [JsonText.text]
    exact strings_read json body targetCwd read
  · rw [← target, ← fill_value place named last (.string body) (.string body)]
    exact parsed
  · intro path same _
    rw [rewrite_run json line threadId path _ _ session, held, same]
    exact if_pos rfl

theorem filled_reads (tokens : ReadsTokens lex) (place : CwdPlace) (line pre after ending : Bytes) (old : JsonText)
    (targetCwd : String) (valid : (place.fill old).Valid lex recursionLimit) (laid : Laid line pre (place.fill old) after ending) :
    Laid (pre ++ ((place.fill (literal targetCwd)).text ++ (after ++ ending))) pre (place.fill (literal targetCwd)) after ending ∧
      Reads lex (jsonOf (pre ++ ((place.fill (literal targetCwd)).text ++ (after ++ ending)))) (place.fill (literal targetCwd)) := by
  have replaced := (fill_valid place recursionLimit old (literal targetCwd) valid fun room => literal_valid tokens targetCwd room).2
  obtain ⟨rest, brace⟩ := place.front_brace
  have split : ∀ value, (place.fill value).text = 123 :: rest ++ (value.text ++ place.back) := by
    intro value
    rw [CwdPlace.fill_text, brace]
  have swapped := laid_swap line pre _ _ after ending rest old.text (literal targetCwd).text place.back laid (split old)
    (split (literal targetCwd)) place.back_long
  exact ⟨swapped, laid_reads _ _ _ _ _ swapped replaced⟩

-- The one cwd of the one payload is exchanged.
theorem rewritten_once (tokens : ReadsTokens lex) (json : ReadsJson lex reader strings) (place : CwdPlace) (named : place.Named lex)
    (first : place.First lex) (last : place.Last lex) (line pre after ending : Bytes) (threadId targetCwd : String) (cwd : JsonText)
    (other : cwd.value lex ≠ .string targetCwd)
    (session : SessionLine lex line threadId (place.fill cwd) (membersValue lex (place.payload cwd) []))
    (laid : Laid line pre (place.fill cwd) after ending) :
    CwdRewritten reader strings line threadId targetCwd (pre ++ ((place.fill (literal targetCwd)).text ++ (after ++ ending)))
      ((place.fill cwd).value lex) (membersValue lex (place.payload cwd) []) (cwd.value lex) (pre ++ place.front) cwd.text
      (literal targetCwd).text (place.back ++ (after ++ ending)) := by
  have valid := session.reads.1
  obtain ⟨⟨room, fits, inner⟩, replaced⟩ := fill_valid place recursionLimit cwd (literal targetCwd) valid fun room =>
    literal_valid tokens targetCwd room
  obtain ⟨swapped, reads⟩ := filled_reads tokens place line pre after ending cwd targetCwd valid laid
  have again := fill_session place named last line _ threadId cwd (literal targetCwd) session reads
  have whole : ∀ value, pre ++ ((place.fill value).text ++ (after ++ ending)) =
      (pre ++ place.front) ++ (value.text ++ (place.back ++ (after ++ ending))) := by
    intro value
    rw [CwdPlace.fill_text]
    simp only [List.append_assoc]
  refine ⟨(json.value _ _).mpr ⟨_, session.reads, rfl⟩, session.object, fill_cwd place named last cwd, laid.whole.trans (whole cwd),
    whole (literal targetCwd), parse_value json cwd room fits inner, ?_, ?_, ?_⟩
  · rw [literal, JsonText.text]
    exact strings_read json _ targetCwd (tokens.written targetCwd)
  · rw [← literal_value tokens targetCwd, ← fill_value place named last cwd (literal targetCwd)]
    exact (json.value _ _).mpr ⟨_, reads, rfl⟩
  · intro path same written
    have back : (fieldOf (membersValue lex (place.payload (literal targetCwd)) []) "cwd").bind Value.asStr ≠ some path := by
      rw [fill_cwd place named last, literal_value tokens]
      intro equal
      rw [Option.bind_some, Value.asStr, Option.some.injEq] at equal
      exact other (same.trans (by rw [equal]))
    rw [rewrite_run json _ threadId path _ _ again, if_neg back,
      replace_run tokens json place named first _ pre after ending (literal targetCwd) path replaced swapped, laid.whole,
        CwdPlace.fill_text,
      CwdPlace.fill_text, literal_text path, written]

variable (lex) in
-- The exact condition: of every session line of the thread, however it is laid out.
def Agrees (line : Bytes) (threadId targetCwd : String) : Prop :=
  ∀ tree payload, SessionLine lex line threadId tree payload → Unshadowed lex targetCwd tree

variable (lex) in
-- What serde_json keeps of the cwd is what the last member of the last payload says.
theorem kept_cwd (kept : Members) :
    fieldOf (membersValue lex kept []) "cwd" = (valuesOf lex "cwd" kept).getLast?.map (JsonText.value lex) := by
  rw [field_members]
  exact Option.or_none

theorem session_object (line : Bytes) (threadId : String) (members : Members) (blank : Bytes) (payload : Fields)
    (session : SessionLine lex line threadId (.object members blank) payload) :
    ∃ pre after ending, Laid line pre (.object members blank) after ending := reads_laid line members blank session.reads

-- Either the line is rewritten as it should be, or it has no cwd to rewrite.
theorem session_outcome (tokens : ReadsTokens lex) (json : ReadsJson lex reader strings) (line : Bytes) (threadId targetCwd : String)
    (tree : JsonText) (payload : Fields) (session : SessionLine lex line threadId tree payload)
    (agrees : Agrees lex line threadId targetCwd) :
    (∃ written cwd front old new back, rewriteSessionMetaCwd strings reader line threadId targetCwd = .ok written ∧
        CwdRewritten reader strings line threadId targetCwd written (tree.value lex) payload cwd front old new back) ∨
      ((fieldOf payload "cwd").bind Value.asStr = none ∧
        ∀ written, rewriteSessionMetaCwd strings reader line threadId targetCwd ≠ .ok written) := by
  obtain ⟨members, blank, kept, gap, rfl, last, rfl⟩ := session_kept line threadId tree payload session
  obtain ⟨pre, after, ending, laid⟩ := session_object line threadId members blank _ session
  have run := rewrite_run json line threadId targetCwd _ _ session
  obtain ⟨first, others, payloads⟩ : ∃ first others, valuesOf lex "payload" members = first :: others := by
    cases payloads : valuesOf lex "payload" members with
    | nil =>
        rw [payloads] at last
        cases last
    | cons first others => exact ⟨first, others, rfl⟩
  have same : ∀ cwd, (valuesOf lex "cwd" kept).getLast? = some cwd → cwd.value lex = .string targetCwd →
      ∃ written value front old new back, rewriteSessionMetaCwd strings reader line threadId targetCwd = .ok written ∧
        CwdRewritten reader strings line threadId targetCwd written ((JsonText.object members blank).value lex)
          (membersValue lex kept [])
          value front old new back := by
    intro cwd held target
    obtain ⟨place, named, ends, fill, rfl, _⟩ := kept_place members kept blank gap last cwd held
    rw [← fill] at session laid ⊢
    refine ⟨line, _, _, _, _, _, ?_,
      rewritten_same json place named ends line pre after ending threadId targetCwd cwd target session laid⟩
    rw [run, fill_cwd place named ends, target]
    exact if_pos rfl
  rcases agrees _ _ session first _ (by rw [membersOf, payloads]; rfl) last with target | ⟨once, single⟩ | ⟨absent, none⟩
  · obtain ⟨cwd, held, value⟩ := Option.map_eq_some_iff.mp target
    exact Or.inl (same cwd held value)
  · obtain ⟨cwd, only⟩ := List.length_eq_one_iff.mp single
    have held : (valuesOf lex "cwd" kept).getLast? = some cwd := by
      change (valuesOf lex "cwd" (membersOf (.object kept gap))).getLast? = some cwd
      rw [only]
      rfl
    by_cases target : cwd.value lex = .string targetCwd
    · exact Or.inl (same cwd held target)
    · obtain ⟨place, named, ends, fill, rfl, _⟩ := kept_place members kept blank gap last cwd held
      rw [← fill] at once
      have begins := once_first place named ends cwd once single
      rw [← fill] at session laid ⊢
      have other : (fieldOf (membersValue lex (place.payload cwd) []) "cwd").bind Value.asStr ≠ some targetCwd := by
        rw [fill_cwd place named ends, Option.bind_some]
        intro equal
        cases value : cwd.value lex with
        | string text =>
            rw [value, Value.asStr, Option.some.injEq] at equal
            exact target (by rw [value, equal])
        | _ =>
            rw [value] at equal
            cases equal
      refine Or.inl ⟨_, _, _, _, _, _, ?_,
        rewritten_once tokens json place named begins ends line pre after ending threadId targetCwd cwd target
        session laid⟩
      rw [run, if_neg other, replace_run tokens json place named begins line pre after ending cwd targetCwd session.reads.1 laid]
  · have missing : (fieldOf (membersValue lex kept []) "cwd").bind Value.asStr = .none := by
      rw [kept_cwd lex]
      exact absent
    refine Or.inr ⟨missing, fun written rewritten => ?_⟩
    rw [run, if_neg (by rw [missing]; exact (Option.some_ne_none _).symm)] at rewritten
    exact replace_stuck tokens json line pre after ending members blank targetCwd session.reads.1 laid first others payloads none
      written rewritten

theorem agrees_right (tokens : ReadsTokens lex) (json : ReadsJson lex reader strings) (line : Bytes) (threadId targetCwd : String)
    (agrees : Agrees lex line threadId targetCwd) : RewritesCwd reader strings line threadId targetCwd where
  right written run := by
    obtain ⟨tree, payload, session⟩ := rewrite_session json line threadId targetCwd written run
    rcases session_outcome tokens json line threadId targetCwd tree payload session agrees with found | stuck
    · obtain ⟨other, cwd, front, old, new, back, again, rewritten⟩ := found
      rw [run, Except.ok.injEq] at again
      exact ⟨_, payload, cwd, front, old, new, back, again ▸ rewritten⟩
    · exact absurd run (stuck.2 written)
  total value payload path parsed isMeta object named held := by
    obtain ⟨tree, reads, rfl⟩ := (json.value _ _).mp parsed
    rcases session_outcome tokens json line threadId targetCwd tree payload ⟨reads, isMeta, object, named⟩ agrees with found | stuck
    · obtain ⟨written, _, _, _, _, _, run, _⟩ := found
      exact ⟨written, run⟩
    · rw [held] at stuck
      cases stuck.1

theorem payload_replaced (members : Members) (blank : Bytes) (payload : Fields) :
    payloadOf (replacePayload ((JsonText.object members blank).value lex) payload) = some payload := by
  have field := field_insert "payload" "payload" (.object payload) (membersValue lex members [])
  rw [if_pos rfl] at field
  change (fieldOf (insertField "payload" (.object payload) (membersValue lex members [])) "payload").bind asObject = some payload
  rw [field]
  rfl

-- Where the scanner exchanged a cwd that is not the one that serde_json keeps, the kept one stays.
theorem scanned_kept (place : CwdPlace) (named : place.Named lex) (first : place.First lex) (old new kept : JsonText)
    (payload : Fields) (last : (valuesOf lex "payload" (place.members old)).getLast? = some kept)
    (fields : kept.value lex = .object payload)
    (hidden : ¬((valuesOf lex "payload" (place.members old)).length = 1 ∧ (valuesOf lex "cwd" (membersOf kept)).length = 1)) :
    ∃ after, payloadOf ((place.fill new).value lex) = some after ∧ fieldOf after "cwd" = fieldOf payload "cwd" := by
  have payloads : ∀ cwd, valuesOf lex "payload" (place.members cwd) =
    .object (place.payload cwd) place.gap :: valuesOf lex "payload" place.behind := by
    intro cwd
    rw [CwdPlace.members, values_append, values_cons, if_pos named.payload, first.payload]
    rfl
  have found : payloadOf ((place.fill new).value lex) =
      ((valuesOf lex "payload" (place.members new)).getLast?.map (JsonText.value lex)).bind asObject := by
    rw [payloadOf, get_values]
    rfl
  rw [payloads] at last
  cases behind : valuesOf lex "payload" place.behind with
  | cons second others =>
      rw [behind, List.getLast?_cons_cons] at last
      rw [found, payloads, behind, List.getLast?_cons_cons, last, Option.map_some, fields]
      exact ⟨payload, rfl, rfl⟩
  | nil =>
      rw [behind, List.getLast?_singleton, Option.some.injEq] at last
      rw [found, payloads, behind]
      refine ⟨membersValue lex (place.payload new) [], rfl, ?_⟩
      have cwds : ∀ cwd, valuesOf lex "cwd" (place.payload cwd) = cwd :: valuesOf lex "cwd" place.last := by
        intro cwd
        rw [CwdPlace.payload, values_append, values_cons, if_pos named.cwd, first.cwd]
        rfl
      rw [← last, JsonText.value, Value.object.injEq] at fields
      rw [← fields, kept_cwd lex, kept_cwd lex, cwds, cwds]
      cases later : valuesOf lex "cwd" place.last with
      | cons second others => rw [List.getLast?_cons_cons, List.getLast?_cons_cons]
      | nil =>
          refine absurd ⟨?_, ?_⟩ hidden
          · rw [payloads, behind]
            rfl
          · rw [← last, membersOf, cwds, later]
            rfl

theorem right_agrees (tokens : ReadsTokens lex) (json : ReadsJson lex reader strings) (line : Bytes) (threadId targetCwd : String)
    (right : RewritesCwd reader strings line threadId targetCwd) : Agrees lex line threadId targetCwd := by
  intro tree payload session first kept begins last
  obtain ⟨members, blank, fields, gap, rfl, same, rfl⟩ := session_kept line threadId tree payload session
  obtain ⟨pre, after, ending, laid⟩ := session_object line threadId members blank _ session
  have run := rewrite_run json line threadId targetCwd _ _ session
  obtain rfl : kept = .object fields gap := Option.some.inj (last.symm.trans same)
  obtain ⟨others, payloads⟩ : ∃ others, valuesOf lex "payload" members = first :: others := by
    obtain ⟨others, payloads⟩ := List.head?_eq_some_iff.mp begins
    exact ⟨others, payloads⟩
  have value := kept_cwd lex fields
  by_contra shadowed
  rw [not_or, not_or] at shadowed
  obtain ⟨other, hidden, held⟩ := shadowed
  rw [membersOf, ← value] at other held
  have differs : (fieldOf (membersValue lex fields []) "cwd").bind Value.asStr ≠ some targetCwd := by
    intro equal
    obtain ⟨cwd, found, text⟩ := Option.bind_eq_some_iff.mp equal
    cases cwd with
    | string path =>
        rw [Value.asStr, Option.some.injEq] at text
        exact other (by rw [found, text])
    | _ => cases text
  rw [if_neg differs] at run
  cases cwds : valuesOf lex "cwd" (membersOf first) with
  | nil =>
      obtain ⟨path, string⟩ := Option.ne_none_iff_exists'.mp fun none => held ⟨none, cwds⟩
      obtain ⟨cwd, found, text⟩ := Option.bind_eq_some_iff.mp string
      have parsed : reader.parse (jsonOf line) = .ok ((JsonText.object members blank).value lex) :=
        (json.value _ _).mpr ⟨_, session.reads, rfl⟩
      have held : fieldOf (membersValue lex fields []) "cwd" = some (.string path) := by
        cases cwd with
        | string other =>
            rw [Value.asStr, Option.some.injEq] at text
            rw [found, text]
        | _ => cases text
      obtain ⟨written, rewritten⟩ := right.total _ _ path parsed session.isMeta session.object session.named held
      rw [run] at rewritten
      exact replace_stuck tokens json line pre after ending members blank targetCwd session.reads.1 laid first others payloads cwds
        written rewritten
  | cons cwd more =>
      obtain ⟨before, label, behind, outer, none, name, _⟩ := first_value _ _ _ _ payloads
      have opened : ∃ inner room, first = .object inner room := by
        cases first with
        | object inner room => exact ⟨inner, room, rfl⟩
        | _ => cases cwds
      obtain ⟨inner, room, rfl⟩ := opened
      obtain ⟨earlier, field, later, split, absent, named, _⟩ := first_value _ _ _ _ cwds
      have place : ∃ place : CwdPlace, place.Named lex ∧ place.First lex ∧ place.members cwd = members ∧ place.blank = blank := by
        refine ⟨⟨before, label, behind, blank, earlier, field, later, room⟩, ⟨name, named⟩, ⟨none, absent⟩, ?_, rfl⟩
        rw [CwdPlace.members, CwdPlace.payload, ← split, outer, membersOf]
      obtain ⟨place, names, firsts, rfl, rfl⟩ := place
      have wrote := replace_run tokens json place names firsts line pre after ending cwd targetCwd session.reads.1 laid
      rw [wrote] at run
      obtain ⟨value, payload, held, front, old, new, back, rewritten⟩ := right.right _ run
      have parsed : reader.parse (jsonOf line) = .ok ((place.fill cwd).value lex) := (json.value _ _).mpr ⟨_, session.reads, rfl⟩
      have sameValue := rewritten.parsed.symm.trans parsed
      rw [Except.ok.injEq] at sameValue
      have samePayload := rewritten.object
      rw [sameValue, CwdPlace.fill, session.object, Option.some.injEq] at samePayload
      have reads := (filled_reads tokens place line pre after ending cwd targetCwd session.reads.1 laid).2
      have replaced := rewritten.replaced.symm.trans ((json.value _ _).mpr ⟨_, reads, rfl⟩)
      rw [Except.ok.injEq, sameValue] at replaced
      obtain ⟨stayed, object, kept⟩ := scanned_kept place names firsts cwd (literal targetCwd) _ _ last rfl hidden
      rw [← replaced, CwdPlace.fill, payload_replaced, Option.some.injEq] at object
      rw [← object, field_insert, if_pos rfl] at kept
      exact other kept.symm

theorem rewrites_cwd_iff (tokens : ReadsTokens lex) (json : ReadsJson lex reader strings) (line : Bytes)
    (threadId targetCwd : String) :
    RewritesCwd reader strings line threadId targetCwd ↔ Agrees lex line threadId targetCwd :=
  ⟨right_agrees tokens json line threadId targetCwd, agrees_right tokens json line threadId targetCwd⟩

end SessionSync.Workspace
