import SessionSync.Workspace.CwdLayout

set_option autoImplicit false

namespace SessionSync.Workspace

open SessionSync.Core Checked Rollout

def bodyOf (line : Bytes) : Bytes := line.take (bodyEnd line)

-- What serde_json is given of a line.
def jsonOf (line : Bytes) : Bytes := (bodyOf line).drop (jsonStart (bodyOf line))

theorem skip_whitespace_bound (input : Bytes) (index : Nat) (bound : index ≤ input.length) :
    skipJsonWhitespace input index ≤ input.length := by
  fun_induction skipJsonWhitespace input index with
  | case1 index found => exact bound
  | case2 index byte found blank ih => exact ih (get_bound input index byte found)
  | case3 index byte found blank => exact bound

theorem skip_whitespace_stops (input : Bytes) (index : Nat) (byte : UInt8)
    (found : input[skipJsonWhitespace input index]? = some byte) :
    isAsciiWhitespace byte = false := by
  fun_induction skipJsonWhitespace input index with
  | case1 index none =>
      rw [none] at found
      cases found
  | case2 index other read blank ih => exact ih found
  | case3 index other read solid =>
      rw [read, Option.some.injEq] at found
      rw [← found, ← Bool.not_eq_true]
      exact solid

theorem json_start_bound (body : Bytes) : jsonStart body ≤ body.length := by
  have first := skip_whitespace_bound body 0 (Nat.zero_le _)
  unfold jsonStart
  dsimp only
  split
  · rename_i mark
    have size := congrArg List.length mark
    rw [List.length_take, List.length_drop] at size
    simp only [bom, List.length_cons, List.length_nil] at size
    exact skip_whitespace_bound body _ (by omega)
  · exact first

theorem json_start_stops (body : Bytes) (byte : UInt8) (found : body[jsonStart body]? = some byte) :
    isAsciiWhitespace byte = false := by
  unfold jsonStart at found
  dsimp only at found
  split at found
  · exact skip_whitespace_stops body _ byte found
  · exact skip_whitespace_stops body _ byte found

-- Before the first brace the scan cannot tell two lines apart.
theorem skip_whitespace_brace (pre left right : Bytes) (index : Nat) (bound : index ≤ pre.length) :
    skipJsonWhitespace (pre ++ 123 :: left) index = skipJsonWhitespace (pre ++ 123 :: right) index ∧
      skipJsonWhitespace (pre ++ 123 :: left) index ≤ pre.length := by
  induction gap : pre.length - index generalizing index with
  | zero =>
      have last : index = pre.length := by omega
      have brace : ∀ rest, (pre ++ 123 :: rest)[index]? = some 123 := by
        intro rest
        rw [last, List.getElem?_append_right (Nat.le_refl _), Nat.sub_self, List.getElem?_cons_zero]
      have stop : isAsciiWhitespace 123 = false := by decide
      rw [skip_whitespace_at 123 (brace left), skip_whitespace_at 123 (brace right), stop]
      exact ⟨rfl, bound⟩
  | succ gap ih =>
      have inside : index < pre.length := by omega
      have byte : ∀ rest, (pre ++ 123 :: rest)[index]? = some pre[index] := by
        intro rest
        rw [List.getElem?_append_left inside, List.getElem?_eq_getElem inside]
      rw [skip_whitespace_at _ (byte left), skip_whitespace_at _ (byte right)]
      by_cases blank : isAsciiWhitespace pre[index] = true
      · rw [if_pos blank, if_pos blank]
        exact ih (index + 1) inside (by omega)
      · rw [if_neg blank, if_neg blank]
        exact ⟨rfl, bound⟩

theorem bom_brace (pre rest : Bytes) : (pre ++ 123 :: rest).take 3 = bom ↔ pre.take 3 = bom := by
  rcases pre with _ | ⟨a, _ | ⟨b, _ | ⟨c, pre⟩⟩⟩ <;> simp [bom]

theorem json_start_brace (pre left right : Bytes) : jsonStart (pre ++ 123 :: left) = jsonStart (pre ++ 123 :: right) := by
  obtain ⟨same, bound⟩ := skip_whitespace_brace pre left right 0 (Nat.zero_le _)
  unfold jsonStart
  dsimp only
  simp only [← same, List.drop_append_of_le_length bound, bom_brace]
  by_cases mark : (pre.drop (skipJsonWhitespace (pre ++ 123 :: left) 0)).take 3 = bom
  · rw [if_pos mark, if_pos mark]
    have size := congrArg List.length mark
    rw [List.length_take, List.length_drop] at size
    simp only [bom, List.length_cons, List.length_nil] at size
    exact (skip_whitespace_brace pre left right _ (by omega)).1
  · rw [if_neg mark, if_neg mark]

theorem suffix_append (short front back : Bytes) (fits : short.length ≤ back.length) : short <:+ front ++ back ↔ short <:+ back :=
  ⟨fun suffix => List.suffix_of_suffix_length_le suffix (List.suffix_append front back) fits, fun suffix =>
    suffix.trans (List.suffix_append _ _)⟩

-- The line ending is found in the last two bytes.
theorem body_end_append (front back : Bytes) (long : 2 ≤ back.length) : bodyEnd (front ++ back) = front.length + bodyEnd back := by
  unfold bodyEnd
  simp only [suffix_append [13, 10] front back long, suffix_append [10] front back (Nat.le_of_succ_le long), List.length_append]
  split
  · omega
  · split
    · omega
    · rfl

theorem body_end_bound (line : Bytes) : bodyEnd line ≤ line.length := by
  unfold bodyEnd
  split
  · omega
  · split <;> omega

-- A line that holds the text of an object, between what is skipped and what is kept.
structure Laid (line pre : Bytes) (tree : JsonText) (after ending : Bytes) : Prop where
  whole : line = pre ++ (tree.text ++ (after ++ ending))
  body : bodyOf line = pre ++ (tree.text ++ after)
  start : jsonStart (bodyOf line) = pre.length
  blank : Blank after

variable {lex : Lexicon}

theorem reads_laid (line : Bytes) (members : Members) (blank : Bytes) (reads : Reads lex (jsonOf line) (.object members blank)) :
    ∃ pre after ending, Laid line pre (.object members blank) after ending := by
  obtain ⟨_, before, after, beforeBlank, afterBlank, written⟩ := reads
  have solid : before = [] := by
    cases before with
    | nil => rfl
    | cons byte before =>
        have head : (bodyOf line)[jsonStart (bodyOf line)]? = some byte := by
          have first : (jsonOf line).head? = some byte := by rw [written]; rfl
          rw [jsonOf, List.head?_drop] at first
          exact first
        have stops := json_start_stops _ byte head
        rw [blank_ascii byte (beforeBlank byte List.mem_cons_self)] at stops
        cases stops
  rw [solid, List.nil_append] at written
  have bound := json_start_bound (bodyOf line)
  have body : bodyOf line = (bodyOf line).take (jsonStart (bodyOf line)) ++ ((JsonText.object members blank).text ++ after) := by
    rw [← written, jsonOf, List.take_append_drop]
  refine ⟨(bodyOf line).take (jsonStart (bodyOf line)), after, line.drop (bodyEnd line), ?_, body, ?_, afterBlank⟩
  · rw [← List.append_assoc, ← List.append_assoc, List.append_assoc _ _ after, ← body, bodyOf, List.take_append_drop]
  · rw [List.length_take, Nat.min_eq_left bound]

theorem laid_json (line pre : Bytes) (tree : JsonText) (after ending : Bytes) (laid : Laid line pre tree after ending) :
    jsonOf line = tree.text ++ after := by
  rw [jsonOf, laid.start, laid.body, List.drop_left]

theorem laid_reads (line pre : Bytes) (tree : JsonText) (after ending : Bytes) (laid : Laid line pre tree after ending)
    (valid : tree.Valid lex recursionLimit) : Reads lex (jsonOf line) tree :=
  ⟨valid, [], after, fun _ none => absurd none List.not_mem_nil, laid.blank, laid_json line pre tree after ending laid⟩

-- A part of the text may be exchanged, as long as the braces around it stay.
theorem laid_swap (line pre : Bytes) (tree other : JsonText) (after ending front old new back : Bytes)
    (laid : Laid line pre tree after ending) (text : tree.text = 123 :: front ++ (old ++ back))
    (changed : other.text = 123 :: front ++ (new ++ back)) (long : 2 ≤ back.length) :
    Laid (pre ++ (other.text ++ (after ++ ending))) pre other after ending := by
  have ends := laid.whole
  have size : (bodyOf line).length = bodyEnd line := by
    rw [bodyOf, List.length_take, Nat.min_eq_left (body_end_bound line)]
  have tail : 2 ≤ (back ++ (after ++ ending)).length := by
    rw [List.length_append]
    omega
  have split : ∀ part, pre ++ ((123 :: front ++ (part ++ back)) ++ (after ++ ending)) = (pre ++ 123 :: front ++ part) ++
    (back ++ (after ++ ending)) := by
    intro part
    simp only [List.append_assoc, List.cons_append]
  have whole : ∀ part, ((pre ++ 123 :: front ++ part) ++ (back ++ (after ++ ending))).take ((pre ++ 123 :: front ++ part).length +
    (back ++ after).length) =
      pre ++ ((123 :: front ++ (part ++ back)) ++ after) := by
    intro part
    rw [List.take_length_add_append, ← List.append_assoc back after ending, List.take_left]
    simp only [List.append_assoc, List.cons_append]
  have stop : bodyEnd (back ++ (after ++ ending)) = (back ++ after).length := by
    have counted := congrArg List.length laid.body
    rw [size, ends, text, split, body_end_append _ _ tail] at counted
    simp only [List.length_append, List.length_cons] at counted ⊢
    omega
  have body : bodyOf (pre ++ (other.text ++ (after ++ ending))) = pre ++ (other.text ++ after) := by
    rw [bodyOf, changed, split, body_end_append _ _ tail, stop, whole]
  refine ⟨rfl, body, ?_, laid.blank⟩
  have start := laid.start
  rw [laid.body, text] at start
  rw [body, changed, List.cons_append, List.cons_append, json_start_brace pre _ (front ++ (old ++ back) ++ after)]
  exact start

-- A member of the payload, and the payload among the members of the record.
structure CwdPlace where
  before : Members
  label : Label
  behind : Members
  blank : Bytes
  first : Members
  field : Label
  last : Members
  gap : Bytes

namespace CwdPlace

variable (place : CwdPlace)

def payload (cwd : JsonText) : Members := place.first ++ (place.field, cwd) :: place.last

def members (cwd : JsonText) : Members := place.before ++ (place.label, .object (place.payload cwd) place.gap) :: place.behind

def fill (cwd : JsonText) : JsonText := .object (place.members cwd) place.blank

def front : Bytes := memberFront place.before place.label ++ memberFront place.first place.field

def back : Bytes := memberBack place.field place.last place.gap ++ memberBack place.label place.behind place.blank

variable (lex) in
structure Named : Prop where
  payload : place.label.name lex = "payload"
  cwd : place.field.name lex = "cwd"

variable (lex) in
-- No payload before it, and no cwd before it in its payload: what the scanner finds.
structure First : Prop where
  payload : valuesOf lex "payload" place.before = []
  cwd : valuesOf lex "cwd" place.first = []

variable (lex) in
-- None behind it: what serde_json keeps.
structure Last : Prop where
  payload : valuesOf lex "payload" place.behind = []
  cwd : valuesOf lex "cwd" place.last = []

theorem fill_text (cwd : JsonText) : (place.fill cwd).text = place.front ++ (cwd.text ++ place.back) := by
  rw [fill, members, object_text, payload, object_text, front, back]
  simp only [List.append_assoc]

theorem front_brace : ∃ rest, place.front = 123 :: rest := ⟨_, by rw [front, memberFront]; rfl⟩

theorem back_long : 2 ≤ place.back.length := by
  simp only [back, memberBack, List.length_append, List.length_singleton]
  omega

end CwdPlace

theorem valid_members_append (room : Nat) (left right : Members) :
    ValidMembers lex room (left ++ right) ↔ ValidMembers lex room left ∧ ValidMembers lex room right := by
  induction left with
  | nil => exact (and_iff_right trivial).symm
  | cons member rest ih =>
      obtain ⟨label, tree⟩ := member
      simp only [List.cons_append, ValidMembers, ih, and_assoc]

theorem valid_member (room : Nat) (earlier later : Members) (label : Label) (tree other : JsonText)
    (valid : ValidMembers lex room (earlier ++ (label, tree) :: later)) (same : other.Valid lex room) :
    tree.Valid lex room ∧ ValidMembers lex room (earlier ++ (label, other) :: later) := by
  rw [valid_members_append, ValidMembers] at valid
  rw [valid_members_append, ValidMembers]
  exact ⟨valid.2.2.1, valid.1, valid.2.1, same, valid.2.2.2⟩

theorem fill_valid (place : CwdPlace) (room : Nat) (old new : JsonText) (valid : (place.fill old).Valid lex room)
    (fresh : ∀ room, new.Valid lex room) :
    (∃ inner ≤ room, old.Valid lex inner) ∧ (place.fill new).Valid lex room := by
  obtain ⟨positive, blank, members⟩ := valid
  have inner := (valid_member _ _ _ _ _ (.word none) members trivial).1
  obtain ⟨deeper, gap, payload⟩ := inner
  obtain ⟨cwd, replaced⟩ := valid_member _ _ _ _ _ new payload (fresh _)
  exact ⟨⟨room - 1 - 1, by omega, cwd⟩, positive, blank,
    (valid_member _ _ _ _ _ (.object (place.payload new) place.gap) members ⟨deeper, gap, replaced⟩).2⟩

mutual
theorem valid_mono (tree : JsonText) (room more : Nat) (fits : room ≤ more) (valid : tree.Valid lex room) : tree.Valid lex more := by
  cases tree with
  | word value => trivial
  | number token => exact valid
  | string body => exact valid
  | array elements blank =>
      exact ⟨Nat.lt_of_lt_of_le valid.1 fits, valid.2.1, elements_mono elements _ _ (Nat.sub_le_sub_right fits 1) valid.2.2⟩
  | object members blank =>
      exact ⟨Nat.lt_of_lt_of_le valid.1 fits, valid.2.1, members_mono members _ _ (Nat.sub_le_sub_right fits 1) valid.2.2⟩
theorem elements_mono (elements : List (Margin × JsonText)) (room more : Nat) (fits : room ≤ more)
    (valid : ValidElements lex room elements) : ValidElements lex more elements := by
  match elements with
  | [] => trivial
  | (margin, tree) :: rest => exact ⟨valid.1, valid_mono tree room more fits valid.2.1, elements_mono rest room more fits valid.2.2⟩
theorem members_mono (members : Members) (room more : Nat) (fits : room ≤ more) (valid : ValidMembers lex room members) :
    ValidMembers lex more members := by
  match members with
  | [] => trivial
  | (label, tree) :: rest => exact ⟨valid.1, valid_mono tree room more fits valid.2.1, members_mono rest room more fits valid.2.2⟩
end

-- What serde_json::to_vec writes for a text.
def literal (text : String) : JsonText := .string (utf8 (text.toList.flatMap escapeChar))

theorem literal_text (text : String) : (literal text).text = utf8 (writeString text) := by
  rw [literal, JsonText.text, writeString, utf8, utf8, List.flatMap_append, List.flatMap_cons]
  rfl

theorem literal_valid (tokens : ReadsTokens lex) (text : String) (room : Nat) : (literal text).Valid lex room :=
  ⟨text, tokens.written text⟩

theorem literal_value (tokens : ReadsTokens lex) (text : String) : (literal text).value lex = .string text := by
  rw [literal, JsonText.value, tokens.written]
  rfl

theorem fill_payload (place : CwdPlace) (named : place.Named lex) (last : place.Last lex) (cwd : JsonText) :
    payloadOf ((place.fill cwd).value lex) = some (membersValue lex (place.payload cwd) []) := by
  have values : valuesOf lex "payload" (place.members cwd) = valuesOf lex "payload" place.before ++
    [.object (place.payload cwd) place.gap] := by
    rw [CwdPlace.members, values_append, values_cons, if_pos named.payload, last.payload, List.append_nil]
  rw [payloadOf, get_values, CwdPlace.fill, membersOf, values, List.getLast?_concat]
  rfl

-- The record with another cwd is the record whose payload has that cwd.
theorem fill_value (place : CwdPlace) (named : place.Named lex) (last : place.Last lex) (old new : JsonText) :
    (place.fill new).value lex =
      replacePayload ((place.fill old).value lex) (insertField "cwd" (new.value lex) (membersValue lex (place.payload old) [])) := by
  have inner := replaced_fields "cwd" place.first place.last place.field old new named.cwd last.cwd
  have outer := replaced_fields "payload" place.before place.behind place.label (.object (place.payload old) place.gap)
    (.object (place.payload new) place.gap) named.payload last.payload
  rw [CwdPlace.fill, CwdPlace.fill, JsonText.value, JsonText.value, replacePayload, CwdPlace.members, CwdPlace.members, outer,
    JsonText.value, CwdPlace.payload, CwdPlace.payload, inner]

variable {reader : Reader} {strings : Bytes → Except String String}

variable (lex) in
-- A line that the function takes for the first record of the thread.
structure SessionLine (line : Bytes) (threadId : String) (tree : JsonText) (payload : Fields) : Prop where
  reads : Reads lex (jsonOf line) tree
  isMeta : isSessionMeta (tree.value lex) = true
  object : payloadOf (tree.value lex) = some payload
  named : (fieldOf payload "id").bind Value.asStr = some threadId

theorem slice_body (line : Bytes) : slice line 0 (bodyEnd line) = .ok (bodyOf line) := by
  rw [slice, ensured _ _ _ ⟨Nat.zero_le _, body_end_bound line⟩]
  rfl

theorem slice_rest (input : Bytes) (start : Nat) (bound : start ≤ input.length) :
    slice input start input.length = .ok (input.drop start) := by
  rw [slice, ensured _ _ _ ⟨bound, Nat.le_refl _⟩, List.take_of_length_le (by rw [List.length_drop])]
  rfl

theorem rewrite_run (json : ReadsJson lex reader strings) (line : Bytes) (threadId targetCwd : String) (tree : JsonText)
    (payload : Fields) (session : SessionLine lex line threadId tree payload) :
    rewriteSessionMetaCwd strings reader line threadId targetCwd =
      if (fieldOf payload "cwd").bind Value.asStr = some targetCwd then .ok line
      else replaceCwd strings line (bodyOf line) (jsonStart (bodyOf line)) targetCwd := by
  have parsed : reader.parse (jsonOf line) = .ok (tree.value lex) := (json.value _ _).mpr ⟨tree, session.reads, rfl⟩
  rw [rewriteSessionMetaCwd, slice_body]
  change (slice (bodyOf line) _ _ >>= _) = _
  rw [slice_rest _ _ (json_start_bound _)]
  change ((reader.parse (jsonOf line)).mapError _ >>= _) = _
  rw [parsed]
  change (ensure _ _ >>= _) = _
  rw [ensured _ _ _ session.isMeta, session.object]
  change (ensure _ _ >>= _) = _
  rw [ensured _ _ _ session.named]
  rfl

theorem rewrite_session (json : ReadsJson lex reader strings) (line : Bytes) (threadId targetCwd : String) (written : Bytes)
    (run : rewriteSessionMetaCwd strings reader line threadId targetCwd = .ok written) :
    ∃ tree payload, SessionLine lex line threadId tree payload := by
  obtain ⟨body, bodied, run⟩ := (bind_ok _ _ _).mp run
  obtain ⟨text, sliced, run⟩ := (bind_ok _ _ _).mp run
  obtain ⟨value, parsed, run⟩ := (bind_ok _ _ _).mp run
  obtain ⟨_, isMeta, run⟩ := (bind_ok _ _ _).mp run
  obtain ⟨payload, object, run⟩ := (bind_ok _ _ _).mp run
  obtain ⟨_, named, _⟩ := (bind_ok _ _ _).mp run
  rw [slice_body, Except.ok.injEq] at bodied
  rw [← bodied, slice_rest _ _ (json_start_bound _), Except.ok.injEq] at sliced
  rw [map_error_ok] at parsed
  rw [ensure_ok] at isMeta named
  rw [found_ok] at object
  obtain ⟨tree, reads, same⟩ := (json.value text value).mp parsed
  rw [← sliced] at reads
  rw [← same] at isMeta object
  exact ⟨tree, payload, reads, isMeta, object, named⟩

theorem text_brace (tokens : ReadsTokens lex) (tree : JsonText) (room : Nat) (valid : tree.Valid lex room)
    (brace : tree.text.head? = some 123) :
    ∃ members blank, tree = .object members blank := by
  obtain ⟨byte, rest, text, kind, _⟩ := text_head tokens tree room valid
  rw [text, List.head?_cons, Option.some.injEq] at brace
  have object : tree.kind = 5 := by rw [← kind, brace]; rfl
  cases tree with
  | object members blank => exact ⟨members, blank, rfl⟩
  | word value =>
      have small := word_kind_small value
      rw [JsonText.kind] at object
      omega
  | _ => cases object

theorem start_found (rest : Bytes) : (123 :: rest).findIdx? (fun byte => decide (byte = (123 : UInt8))) = some 0 := by
  rw [List.findIdx?_cons]
  rfl

-- What the scanner reads before it looks for the payload.
theorem replace_opens (line pre after ending : Bytes) (members : Members) (blank : Bytes) (targetCwd : String)
    (laid : Laid line pre (.object members blank) after ending) :
    replaceCwd strings line (bodyOf line) (jsonStart (bodyOf line)) targetCwd = (do
      let payload ← findObjectFieldValue strings (bodyOf line) pre.length "payload"
      let payloadRange ← found payload "rollout session metadata has no payload field"
      ensure ((bodyOf line)[payloadRange.1]? = some 123) "rollout session_meta payload is not a JSON object"
      let cwd ← findObjectFieldValue strings (bodyOf line) payloadRange.1 "cwd"
      let cwdRange ← found cwd "rollout session_meta payload has no cwd field"
      let head ← slice (bodyOf line) 0 cwdRange.1
      let tail ← slice (bodyOf line) cwdRange.2 (bodyOf line).length
      let ending ← slice line (bodyEnd line) line.length
      return head ++ utf8 (writeString targetCwd) ++ tail ++ ending) := by
  obtain ⟨rest, text⟩ : ∃ rest, (JsonText.object members blank).text = 123 :: rest := ⟨_, by rw [JsonText.text]; rfl⟩
  have sliced : (bodyOf line).drop pre.length = 123 :: (rest ++ after) := by
    rw [laid.body, List.drop_left, text]
    rfl
  have step : ∀ next : Bytes → Except String Bytes, (Except.ok (123 :: (rest ++ after)) >>= next) = next (123 :: (rest ++ after)) :=
    fun _ => rfl
  rw [replaceCwd, slice_rest _ _ (json_start_bound _), laid.start, sliced, step, start_found]
  rfl

theorem laid_ending (line pre : Bytes) (tree : JsonText) (after ending : Bytes) (laid : Laid line pre tree after ending) :
    slice line (bodyEnd line) line.length = .ok ending := by
  rw [slice_rest _ _ (body_end_bound line)]
  have whole : bodyOf line ++ line.drop (bodyEnd line) = bodyOf line ++ ending := by
    rw [bodyOf, List.take_append_drop, ← bodyOf, laid.body, List.append_assoc, List.append_assoc]
    exact laid.whole
  rw [List.append_cancel_left whole]

theorem laid_at (line pre : Bytes) (tree : JsonText) (after ending : Bytes) (laid : Laid line pre tree after ending) :
    At (bodyOf line) pre.length (tree.text ++ after) := ⟨pre, laid.body, rfl⟩

-- The scanner exchanges the first cwd of the first payload.
theorem replace_run (tokens : ReadsTokens lex) (json : ReadsJson lex reader strings) (place : CwdPlace) (named : place.Named lex)
    (first : place.First lex) (line pre after ending : Bytes) (old : JsonText) (targetCwd : String)
    (valid : (place.fill old).Valid lex recursionLimit) (laid : Laid line pre (place.fill old) after ending) :
    replaceCwd strings line (bodyOf line) (jsonStart (bodyOf line)) targetCwd =
      .ok (pre ++ ((place.fill (literal targetCwd)).text ++ (after ++ ending))) := by
  have here := laid_at _ _ _ _ _ laid
  have inner := (valid_member _ _ _ _ _ (.word none) valid.2.2 trivial).1
  have payload := find_field tokens json "payload" _ _ _ valid here
  rw [CwdPlace.members, locate_first _ _ _ _ _ _ first.payload named.payload] at payload
  have outward : pre.length + 1 + (membersText place.before).length + place.label.text.length =
      pre.length + (memberFront place.before place.label).length := by
    rw [front_length]
    omega
  rw [outward] at payload
  have written := object_text place.before place.behind place.label (.object (place.payload old) place.gap) place.blank
  rw [CwdPlace.fill, CwdPlace.members, written, List.append_assoc, List.append_assoc] at here
  have inside := at_past _ here
  have brace : (bodyOf line)[pre.length + (memberFront place.before place.label).length]? = some 123 := by
    rw [at_get inside, JsonText.text]
    rfl
  have cwd := find_field tokens json "cwd" _ _ _ inner inside
  rw [CwdPlace.payload, locate_first _ _ _ _ _ _ first.cwd named.cwd] at cwd
  have inward : pre.length + (memberFront place.before place.label).length + 1 + (membersText place.first).length +
    place.field.text.length =
      (pre ++ place.front).length := by
    rw [List.length_append, CwdPlace.front, List.length_append, front_length place.first]
    omega
  rw [inward] at cwd
  have whole : bodyOf line = (pre ++ place.front) ++ (old.text ++ (place.back ++ after)) := by
    rw [laid.body, CwdPlace.fill_text]
    simp only [List.append_assoc]
  have head : slice (bodyOf line) 0 (pre ++ place.front).length = .ok (pre ++ place.front) := by
    have start : At (bodyOf line) 0 ((pre ++ place.front) ++ (old.text ++ (place.back ++ after))) := ⟨[], whole, rfl⟩
    have sliced := at_slice _ start
    rwa [Nat.zero_add] at sliced
  have tail : slice (bodyOf line) ((pre ++ place.front).length + old.text.length) (bodyOf line).length =
    .ok (place.back ++ after) := by
    have bound : (pre ++ place.front).length + old.text.length ≤ (bodyOf line).length := by
      simp only [whole, List.length_append]
      omega
    rw [slice_rest _ _ bound, whole, ← List.append_assoc, ← List.length_append, List.drop_left]
  rw [replace_opens line pre after ending _ _ targetCwd laid]
  change (findObjectFieldValue strings (bodyOf line) pre.length "payload" >>= _) = _
  rw [payload]
  change (ensure _ _ >>= _) = _
  rw [ensured _ _ _ brace]
  rw [cwd]
  change (slice (bodyOf line) 0 _ >>= _) = _
  rw [head]
  change (slice (bodyOf line) _ _ >>= _) = _
  rw [tail]
  change (slice line _ _ >>= _) = _
  rw [laid_ending line pre _ after ending laid]
  change Except.ok _ = _
  rw [CwdPlace.fill_text, literal_text]
  simp only [List.append_assoc]

-- Without a cwd in the first payload it finds nothing to exchange.
theorem replace_stuck (tokens : ReadsTokens lex) (json : ReadsJson lex reader strings) (line pre after ending : Bytes)
    (members : Members) (blank : Bytes) (targetCwd : String) (valid : (JsonText.object members blank).Valid lex recursionLimit)
    (laid : Laid line pre (.object members blank) after ending) (first : JsonText) (others : List JsonText)
    (payloads : valuesOf lex "payload" members = first :: others) (none : valuesOf lex "cwd" (membersOf first) = [])
    (written : Bytes) :
    replaceCwd strings line (bodyOf line) (jsonStart (bodyOf line)) targetCwd ≠ .ok written := by
  obtain ⟨earlier, label, later, split, before, name, _⟩ := first_value _ _ _ _ payloads
  subst split
  intro run
  have here := laid_at _ _ _ _ _ laid
  have inner := (valid_member _ _ _ _ _ (.word .none) valid.2.2 trivial).1
  have payload := find_field tokens json "payload" _ _ _ valid here
  rw [locate_first _ _ _ _ _ _ before name] at payload
  have outward : pre.length + 1 + (membersText earlier).length + label.text.length = pre.length +
    (memberFront earlier label).length := by
    rw [front_length]
    omega
  rw [outward] at payload
  rw [object_text, List.append_assoc, List.append_assoc] at here
  have inside := at_past _ here
  rw [replace_opens line pre after ending _ _ targetCwd laid, payload] at run
  obtain ⟨range, search, run⟩ := (bind_ok _ _ _).mp run
  obtain ⟨payloadRange, some, run⟩ := (bind_ok _ _ _).mp run
  rw [Except.ok.injEq] at search
  obtain ⟨_, brace, run⟩ := (bind_ok _ _ _).mp run
  obtain ⟨cwd, looked, run⟩ := (bind_ok _ _ _).mp run
  obtain ⟨cwdRange, held, _⟩ := (bind_ok _ _ _).mp run
  rw [found_ok, ← search, Option.some.injEq] at some
  rw [ensure_ok, ← some, at_get inside] at brace
  obtain ⟨byte, rest, text, _, _⟩ := text_head tokens first _ inner
  rw [text, List.cons_append, List.head?_cons, ← List.head?_cons (l := rest), ← text] at brace
  obtain ⟨fields, gap, rfl⟩ := text_brace tokens first _ inner brace
  have absent : valuesOf lex "cwd" fields = [] := none
  rw [← some, find_field tokens json "cwd" _ fields gap inner inside, locate_none _ _ _ absent, Except.ok.injEq] at looked
  rw [found_ok, ← looked] at held
  cases held

end SessionSync.Workspace
