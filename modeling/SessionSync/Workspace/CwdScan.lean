import SessionSync.Rollout.JsonCancel
import SessionSync.Workspace.CwdRewrite

set_option autoImplicit false

namespace SessionSync.Workspace

open SessionSync.Core Checked Rollout

-- What is left of the input from an index on.
def At (input : Bytes) (index : Nat) (rest : Bytes) : Prop := ∃ front, input = front ++ rest ∧ front.length = index

variable {input rest : Bytes} {index : Nat}

theorem at_get (here : At input index rest) : input[index]? = rest.head? := by
  obtain ⟨front, whole, length⟩ := here
  rw [whole, ← length, List.getElem?_append_right (Nat.le_refl _), Nat.sub_self, List.head?_eq_getElem?]

theorem at_past (text : Bytes) (here : At input index (text ++ rest)) : At input (index + text.length) rest := by
  obtain ⟨front, whole, length⟩ := here
  exact ⟨front ++ text, by rw [whole, List.append_assoc], by rw [List.length_append, length]⟩

theorem at_next (byte : UInt8) (here : At input index (byte :: rest)) : At input (index + 1) rest := at_past [byte] here

theorem at_slice (text : Bytes) (here : At input index (text ++ rest)) : slice input index (index + text.length) = .ok text := by
  obtain ⟨front, whole, length⟩ := here
  have bound : index ≤ index + text.length ∧ index + text.length ≤ input.length := by
    rw [whole, List.length_append, List.length_append, length]
    omega
  rw [slice, ensured _ _ _ bound, Nat.add_sub_cancel_left, whole, ← length, List.drop_left, List.take_left]
  rfl

theorem skip_whitespace_at (byte : UInt8) (here : input[index]? = some byte) :
    skipJsonWhitespace input index = if isAsciiWhitespace byte then skipJsonWhitespace input (index + 1) else index := by
  rw [skipJsonWhitespace]
  split
  · rename_i none
    rw [here] at none
    cases none
  · rename_i other found
    rw [here, Option.some.injEq] at found
    rw [found]

theorem skip_whitespace (blank : Bytes) (all : ∀ byte ∈ blank, isAsciiWhitespace byte = true)
    (solid : ∀ byte, rest.head? = some byte → isAsciiWhitespace byte = false) (here : At input index (blank ++ rest)) :
    skipJsonWhitespace input index = index + blank.length := by
  induction blank generalizing index with
  | nil =>
      have get := at_get here
      cases rest with
      | nil =>
          rw [skipJsonWhitespace]
          split
          · rfl
          · rename_i byte found
            rw [get] at found
            cases found
      | cons byte rest =>
          rw [skip_whitespace_at byte get, solid byte rfl]
          rfl
  | cons byte blank ih =>
      rw [skip_whitespace_at byte (at_get here), all byte List.mem_cons_self, if_pos rfl,
        ih (fun other member => all other (List.mem_cons_of_mem _ member)) (at_next byte here), List.length_cons]
      omega

theorem blank_ascii (byte : UInt8) : isBlankByte byte = true → isAsciiWhitespace byte = true :=
  every_byte (fun byte => isBlankByte byte = true → isAsciiWhitespace byte = true) (by decide +kernel) byte

-- The blanks of a document, up to a byte that is no blank.
theorem skip_blank (blank : Bytes) (all : Blank blank) (byte : UInt8) (solid : isAsciiWhitespace byte = false)
    (here : At input index (blank ++ byte :: rest)) : skipJsonWhitespace input index = index + blank.length := by
  refine skip_whitespace blank (fun other member => blank_ascii other (all other member)) (fun other head => ?_) here
  rw [List.head?_cons, Option.some.injEq] at head
  exact head ▸ solid

theorem string_loop_at (byte : UInt8) (here : input[index]? = some byte) :
    stringLoop input index = if byte = 34 then .ok (index + 1) else if byte = 92 then stringLoop input (index + 2)
      else stringLoop input (index + 1) := by
  rw [stringLoop]
  split
  · rename_i none
    rw [here] at none
    cases none
  · rename_i other found
    rw [here, Option.some.injEq] at found
    rw [found]

theorem string_loop (body : Bytes) (escaped : Escaped body) (here : At input index (body ++ 34 :: rest)) :
    stringLoop input index = .ok (index + body.length + 1) := by
  induction escaped generalizing index with
  | done => rw [string_loop_at 34 (at_get here), if_pos rfl, List.length_nil, Nat.add_zero]
  | plain byte body quote backslash more ih =>
      rw [string_loop_at byte (at_get here), if_neg quote, if_neg backslash, ih (at_next byte here), List.length_cons,
        Except.ok.injEq]
      omega
  | escape byte body more ih =>
      have later : At input (index + 2) (body ++ 34 :: rest) := at_past [92, byte] here
      rw [string_loop_at 92 (at_get here), if_neg (by decide), if_pos rfl, ih later, List.length_cons, List.length_cons,
        Except.ok.injEq]
      omega

theorem skip_string (body : Bytes) (escaped : Escaped body) (here : At input index (34 :: body ++ 34 :: rest)) :
    skipJsonString input index = .ok (index + (34 :: body ++ [34]).length) := by
  have quote : input[index]? = some 34 := at_get here
  rw [skipJsonString, ensured _ _ _ quote, string_loop body escaped (at_next 34 here), List.length_append, List.length_cons,
    List.length_singleton, Except.ok.injEq]
  omega

theorem container_at (stack : List UInt8) (byte : UInt8) (here : input[index]? = some byte) :
    containerLoop input stack index =
      if byte = 34 then skipJsonString input index >>= containerLoop input stack
      else if byte = 123 ∨ byte = 91 then containerLoop input (byte :: stack) (index + 1)
      else if byte = 125 then
        if closes stack 123 = false then .error "mismatched JSON object delimiter"
        else if stack.tail = [] then .ok (index + 1) else containerLoop input stack.tail (index + 1)
      else if byte = 93 then
        if closes stack 91 = false then .error "mismatched JSON array delimiter"
        else if stack.tail = [] then .ok (index + 1) else containerLoop input stack.tail (index + 1)
      else containerLoop input stack (index + 1) := by
  rw [containerLoop]
  split
  · rename_i none
    rw [here] at none
    cases none
  · rename_i other found
    rw [here, Option.some.injEq] at found
    rw [← found]
    by_cases quote : byte = 34
    · rw [if_pos quote, if_pos quote]
      split
      · rename_i error skipped
        rw [skipped]
        rfl
      · rename_i next skipped
        rw [skipped]
        rfl
    · rw [if_neg quote, if_neg quote]

-- A text that the loop over a container passes, with the brackets around it still open.
def Passes (text : Bytes) : Prop :=
  ∀ (input rest : Bytes) (index : Nat) (stack : List UInt8), stack ≠ [] → At input index (text ++ rest) →
    containerLoop input stack index = containerLoop input stack (index + text.length)

def isInert (byte : UInt8) : Bool := byte ≠ 34 && byte ≠ 123 && byte ≠ 91 && byte ≠ 125 && byte ≠ 93

theorem passes_nil : Passes [] := fun _ _ _ _ _ _ => rfl

theorem passes_append (left right : Bytes) (first : Passes left) (second : Passes right) : Passes (left ++ right) := by
  intro input rest index stack inside here
  rw [List.append_assoc] at here
  rw [first input (right ++ rest) index stack inside here, second input rest _ stack inside (at_past left here), List.length_append,
    Nat.add_assoc]

theorem passes_inert (text : Bytes) (all : ∀ byte ∈ text, isInert byte = true) : Passes text := by
  induction text with
  | nil => exact passes_nil
  | cons byte text ih =>
      intro input rest index stack inside here
      have inert := all byte List.mem_cons_self
      simp only [isInert, Bool.and_eq_true, decide_eq_true_eq] at inert
      obtain ⟨⟨⟨⟨quote, brace⟩, bracket⟩, braceEnd⟩, bracketEnd⟩ := inert
      have opening : ¬ (byte = 123 ∨ byte = 91) := fun either => either.elim brace bracket
      rw [container_at stack byte (at_get here), if_neg quote, if_neg opening, if_neg braceEnd, if_neg bracketEnd,
        ih (fun other member => all other (List.mem_cons_of_mem _ member)) input rest (index + 1) stack inside (at_next byte here),
        List.length_cons]
      congr 1
      omega

theorem passes_byte (byte : UInt8) (inert : isInert byte = true) : Passes [byte] :=
  passes_inert [byte] (fun _ member => List.mem_singleton.mp member ▸ inert)

theorem passes_blank (blank : Bytes) (all : Blank blank) : Passes blank :=
  passes_inert blank fun byte member =>
    every_byte (fun byte => isBlankByte byte = true → isInert byte = true) (by decide +kernel) byte (all byte member)

theorem passes_string (body : Bytes) (escaped : Escaped body) : Passes (34 :: body ++ [34]) := by
  intro input rest index stack inside here
  rw [List.append_assoc] at here
  rw [container_at stack 34 (at_get here), if_pos rfl, skip_string body escaped here]
  rfl

-- The two kinds of brackets.
def Brackets (opening closing : UInt8) : Prop := (opening = 123 ∧ closing = 125) ∨ (opening = 91 ∧ closing = 93)

theorem container_open (opening closing : UInt8) (brackets : Brackets opening closing) (stack : List UInt8)
    (here : input[index]? = some opening) : containerLoop input stack index = containerLoop input (opening :: stack) (index + 1) := by
  rw [container_at stack opening here]
  rcases brackets with both | both
  · rw [both.1, if_neg (by decide), if_pos (Or.inl rfl)]
  · rw [both.1, if_neg (by decide), if_pos (Or.inr rfl)]

theorem container_close (opening closing : UInt8) (brackets : Brackets opening closing) (stack : List UInt8)
    (here : input[index]? = some closing) :
    containerLoop input (opening :: stack) index = if stack = [] then .ok (index + 1) else containerLoop input stack (index + 1) := by
  rw [container_at (opening :: stack) closing here]
  rcases brackets with both | both
  · rw [both.1, both.2]
    rfl
  · rw [both.1, both.2]
    rfl

theorem passes_container (opening closing : UInt8) (brackets : Brackets opening closing) (inner : Bytes) (passes : Passes inner) :
    Passes (opening :: inner ++ [closing]) := by
  intro input rest index stack inside here
  rw [List.cons_append, List.cons_append, List.append_assoc] at here
  have inward := at_next opening here
  rw [container_open opening closing brackets stack (at_get here),
    passes input _ (index + 1) (opening :: stack) (List.cons_ne_nil _ _) inward,
    container_close opening closing brackets stack (at_get (at_past inner inward)), if_neg inside, List.length_append,
      List.length_cons,
    List.length_singleton]
  congr 1
  omega

theorem skip_container (opening closing : UInt8) (brackets : Brackets opening closing) (inner : Bytes) (passes : Passes inner)
    (here : At input index (opening :: inner ++ [closing] ++ rest)) :
    skipJsonValue input index = .ok (index + (opening :: inner ++ [closing]).length) := by
  rw [List.cons_append, List.cons_append, List.append_assoc] at here
  have get := at_get here
  have inward := at_next opening here
  have opens : opening ≠ 34 ∧ (opening = 123 ∨ opening = 91) := by
    rcases brackets with both | both
    · exact ⟨by rw [both.1]; decide, Or.inl both.1⟩
    · exact ⟨by rw [both.1]; decide, Or.inr both.1⟩
  have value : skipJsonValue input index = containerLoop input [opening] (index + 1) := by
    simp only [skipJsonValue, get, List.head?_cons, if_neg opens.1, if_pos opens.2]
  rw [value, passes input _ (index + 1) [opening] (List.cons_ne_nil _ _) inward,
    container_close opening closing brackets [] (at_get (at_past inner inward)), if_pos rfl, List.length_append, List.length_cons,
    List.length_singleton, Except.ok.injEq]
  omega

theorem word_inert (value : Option Bool) : ∀ byte ∈ wordText value, isInert byte = true ∧ endsScalar byte = false := by
  rcases value with _ | _ | _ <;> simp [wordText, isInert, endsScalar, isAsciiWhitespace]

theorem number_inert (byte : UInt8) : isNumberByte byte = true → isInert byte = true ∧ endsScalar byte = false :=
  every_byte (fun byte => isNumberByte byte = true → isInert byte = true ∧ endsScalar byte = false) (by decide +kernel) byte

variable {lex : Lexicon}

theorem passes_label (tokens : ReadsTokens lex) (label : Label) (blank : label.Blank) (name : String)
    (key : lex.string label.key = some name) : Passes label.text := by
  have written : label.text = label.before ++ (34 :: label.key ++ [34]) ++ (label.gap ++ [58] ++ label.lead) := by
    simp only [Label.text, List.append_assoc, List.cons_append, List.nil_append]
  rw [written]
  refine passes_append _ _ (passes_append _ _ (passes_blank _ blank.1) (passes_string _ (tokens.quoted _ name key))) ?_
  exact passes_append _ _ (passes_append _ _ (passes_blank _ blank.2.1) (passes_byte 58 rfl)) (passes_blank _ blank.2.2.1)

mutual
theorem passes_text (tokens : ReadsTokens lex) (tree : JsonText) (room : Nat) (valid : tree.Valid lex room) : Passes tree.text := by
  cases tree with
  | word value =>
      rw [JsonText.text]
      exact passes_inert _ fun byte member => (word_inert value byte member).1
  | number token =>
      obtain ⟨value, read⟩ := valid
      rw [JsonText.text]
      exact passes_inert token fun byte member => (number_inert byte ((tokens.number token value read).2.1 byte member)).1
  | string body =>
      obtain ⟨text, read⟩ := valid
      rw [JsonText.text]
      exact passes_string body (tokens.quoted body text read)
  | array elements blank =>
      rw [JsonText.text]
      exact passes_container 91 93 (Or.inr ⟨rfl, rfl⟩) _
        (passes_append _ _ (passes_elements tokens elements _ valid.2.2).1 (passes_blank blank valid.2.1))
  | object members blank =>
      rw [JsonText.text]
      exact passes_container 123 125 (Or.inl ⟨rfl, rfl⟩) _
        (passes_append _ _ (passes_members tokens members _ valid.2.2).1 (passes_blank blank valid.2.1))
theorem passes_elements (tokens : ReadsTokens lex) (elements : List (Margin × JsonText)) (room : Nat)
    (valid : ValidElements lex room elements) : Passes ((elementsText elements).drop 1) ∧ Passes (elementsText elements) := by
  match elements with
  | [] => exact ⟨passes_nil, passes_nil⟩
  | (margin, tree) :: rest =>
      obtain ⟨blank, inner, others⟩ := valid
      have body : Passes (margin.before ++ tree.text ++ margin.after ++ elementsText rest) :=
        passes_append _ _ (passes_append _ _ (passes_append _ _ (passes_blank _ blank.1) (passes_text tokens tree room inner))
          (passes_blank _ blank.2)) (passes_elements tokens rest room others).2
      exact ⟨body, passes_append [44] _ (passes_byte 44 rfl) body⟩
theorem passes_members (tokens : ReadsTokens lex) (members : List (Label × JsonText)) (room : Nat)
    (valid : ValidMembers lex room members) : Passes ((membersText members).drop 1) ∧ Passes (membersText members) := by
  match members with
  | [] => exact ⟨passes_nil, passes_nil⟩
  | (label, tree) :: rest =>
      obtain ⟨⟨blank, name, key⟩, inner, others⟩ := valid
      have body : Passes (label.text ++ tree.text ++ label.after ++ membersText rest) :=
        passes_append _ _ (passes_append _ _ (passes_append _ _ (passes_label tokens label blank name key)
          (passes_text tokens tree room inner)) (passes_blank _ blank.2.2.2)) (passes_members tokens rest room others).2
      exact ⟨body, passes_append [44] _ (passes_byte 44 rfl) body⟩
end

theorem ends_scalar (byte : UInt8) : isTerminator byte = true → endsScalar byte = true :=
  every_byte (fun byte => isTerminator byte = true → endsScalar byte = true) (by decide +kernel) byte

theorem scalar_loop_at (byte : UInt8) (here : input[index]? = some byte) :
    scalarLoop input index = if endsScalar byte then index else scalarLoop input (index + 1) := by
  rw [scalarLoop]
  split
  · rename_i none
    rw [here] at none
    cases none
  · rename_i other found
    rw [here, Option.some.injEq] at found
    rw [found]

theorem scalar_loop (text : Bytes) (all : ∀ byte ∈ text, endsScalar byte = false) (ends : Ends rest)
    (here : At input index (text ++ rest)) :
    scalarLoop input index = index + text.length := by
  induction text generalizing index with
  | nil =>
      have get := at_get here
      cases rest with
      | nil =>
          rw [scalarLoop]
          split
          · rfl
          · rename_i byte found
            rw [get] at found
            cases found
      | cons byte rest =>
          rw [scalar_loop_at byte get, ends_scalar byte (ends byte rfl)]
          rfl
  | cons byte text ih =>
      rw [scalar_loop_at byte (at_get here), all byte List.mem_cons_self, if_neg Bool.false_ne_true,
        ih (fun other member => all other (List.mem_cons_of_mem _ member)) (at_next byte here), List.length_cons]
      omega

theorem skip_scalar (text : Bytes) (some : text ≠ []) (all : ∀ byte ∈ text, isInert byte = true ∧ endsScalar byte = false)
    (ends : Ends rest) (here : At input index (text ++ rest)) : skipJsonValue input index = .ok (index + text.length) := by
  have loop := scalar_loop text (fun byte member => (all byte member).2) ends here
  cases text with
  | nil => exact absurd rfl some
  | cons byte text =>
      have inert := (all byte List.mem_cons_self).1
      simp only [isInert, Bool.and_eq_true, decide_eq_true_eq] at inert
      obtain ⟨⟨⟨⟨quote, brace⟩, bracket⟩, _⟩, _⟩ := inert
      have opening : ¬ (byte = 123 ∨ byte = 91) := fun either => either.elim brace bracket
      have moved : index + (byte :: text).length ≠ index := by
        rw [List.length_cons]
        omega
      simp only [skipJsonValue, at_get here, List.cons_append, List.head?_cons, if_neg quote, if_neg opening, loop, if_neg moved]

-- The scanner finds the end of every value.
theorem skip_value (tokens : ReadsTokens lex) (tree : JsonText) (room : Nat) (valid : tree.Valid lex room) (ends : Ends rest)
    (here : At input index (tree.text ++ rest)) : skipJsonValue input index = .ok (index + tree.text.length) := by
  cases tree with
  | word value =>
      rw [JsonText.text] at here ⊢
      exact skip_scalar _ (by cases value with | none => decide | some value => cases value <;> decide) (word_inert value) ends here
  | number token =>
      obtain ⟨value, read⟩ := valid
      obtain ⟨some, digits, _⟩ := tokens.number token value read
      rw [JsonText.text] at here ⊢
      exact skip_scalar token some (fun byte member => number_inert byte (digits byte member)) ends here
  | string body =>
      obtain ⟨text, read⟩ := valid
      rw [JsonText.text] at here ⊢
      rw [List.append_assoc] at here
      have quote : input[index]? = some 34 := at_get here
      simp only [skipJsonValue, quote, if_pos]
      exact skip_string body (tokens.quoted body text read) here
  | array elements blank =>
      rw [JsonText.text] at here ⊢
      exact skip_container 91 93 (Or.inr ⟨rfl, rfl⟩) _
        (passes_append _ _ (passes_elements tokens elements _ valid.2.2).1 (passes_blank blank valid.2.1)) here
  | object members blank =>
      rw [JsonText.text] at here ⊢
      exact skip_container 123 125 (Or.inl ⟨rfl, rfl⟩) _
        (passes_append _ _ (passes_members tokens members _ valid.2.2).1 (passes_blank blank valid.2.1)) here

variable (lex) in
-- Where the loop over the members finds the first of a name.
def locate (targetField : String) : Nat → List (Label × JsonText) → Option (Nat × Nat)
  | _, [] => none
  | index, (label, tree) :: rest =>
      if label.name lex = targetField then some (index + label.text.length, index + label.text.length + tree.text.length)
      else locate targetField (index + label.text.length + tree.text.length + label.after.length + 1) rest

theorem kind_ascii (byte : UInt8) : kindOf byte < 7 → isAsciiWhitespace byte = false :=
  every_byte (fun byte => kindOf byte < 7 → isAsciiWhitespace byte = false) (by decide +kernel) byte

variable {reader : Reader} {strings : Bytes → Except String String}

theorem strings_read (json : ReadsJson lex reader strings) (body : Bytes) (name : String) (read : lex.string body = some name) :
    strings (34 :: body ++ [34]) = .ok name :=
  (json.string _ _).mpr ⟨body, [], [], fun _ none => absurd none List.not_mem_nil, fun _ none =>
    absurd none List.not_mem_nil, rfl, read⟩

-- One turn of the loop: the member is found, or another one follows, or the object ends.
theorem member_step (tokens : ReadsTokens lex) (json : ReadsJson lex reader strings) (targetField : String) (label : Label)
    (tree : JsonText) (room : Nat) (blank : label.Blank) (name : String) (key : lex.string label.key = some name)
    (valid : tree.Valid lex room) (after : Bytes) (mark : UInt8) (marks : mark = 44 ∨ mark = 125) (afterBlank : Blank after)
    (here : At input index (label.text ++ (tree.text ++ (after ++ mark :: rest)))) :
    memberStep strings input targetField index = .ok
      (if label.name lex = targetField then .done (some (index + label.text.length, index + label.text.length + tree.text.length))
      else if mark = 44 then .again (index + label.text.length + tree.text.length + after.length + 1)
      else .done none) := by
  have solid : isAsciiWhitespace mark = false ∧ isTerminator mark = true := by
    rcases marks with mark | mark
    · rw [mark]
      decide
    · rw [mark]
      decide
  obtain ⟨byte, more, text, _, opens⟩ := text_head tokens tree room valid
  have named : label.name lex = name := by rw [Label.name, key, Option.getD_some]
  have size : label.text.length = label.before.length + (34 :: label.key ++ [34]).length + label.gap.length + 1 +
    label.lead.length := by
    simp only [Label.text, List.length_append, List.length_cons, List.length_nil]
    omega
  simp only [Label.text, List.append_assoc, List.cons_append] at here
  have keyStart := skip_blank label.before blank.1 34 (by decide) here
  have atKey := at_past label.before here
  have quote : input[index + label.before.length]? = some 34 := at_get atKey
  have keyEnd := skip_string label.key (tokens.quoted _ name key) atKey
  have whole : (34 :: (label.key ++ 34 :: (label.gap ++ 58 :: (label.lead ++ (tree.text ++ (after ++ mark :: rest)))))) =
      (34 :: label.key ++ [34]) ++ (label.gap ++ 58 :: (label.lead ++ (tree.text ++ (after ++ mark :: rest)))) := by
    simp only [List.append_assoc, List.cons_append, List.nil_append]
  rw [whole] at atKey
  have bytes := at_slice _ atKey
  have atGap := at_past _ atKey
  have separator := skip_blank label.gap blank.2.1 58 (by decide) atGap
  have atColon := at_past _ atGap
  have colon : input[index + label.before.length + (34 :: label.key ++ [34]).length + label.gap.length]? = some 58 := at_get atColon
  have atLead := at_next _ atColon
  have valueStart : skipJsonWhitespace input (index + label.before.length + (34 :: label.key ++ [34]).length + label.gap.length + 1) =
      index + label.text.length := by
    rw [text] at atLead
    rw [skip_blank label.lead blank.2.2.1 byte (kind_ascii byte opens) atLead, size]
    omega
  have atValue := at_past _ atLead
  have start : index + label.before.length + (34 :: label.key ++ [34]).length + label.gap.length + 1 + label.lead.length =
      index + label.text.length := by
    rw [size]
    omega
  rw [start] at atValue
  have value := skip_value tokens tree room valid (ends_blank after _ afterBlank (ends_cons mark rest solid.2)) atValue
  have atAfter := at_past _ atValue
  have next := skip_blank after afterBlank mark solid.1 atAfter
  have get : input[index + label.text.length + tree.text.length + after.length]? = some mark := at_get (at_past _ atAfter)
  have closing : input[index + label.before.length]? ≠ some 125 := by
    rw [quote]
    decide
  have read : readMember strings input targetField (index + label.before.length) =
      afterValue input (index + label.text.length) (index + label.text.length + tree.text.length) (name = targetField) := by
    rw [readMember, keyEnd]
    change (slice input _ _ >>= _) = _
    rw [bytes]
    change (strings _ >>= _) = _
    rw [strings_read json label.key name key]
    change (ensure _ _ >>= _) = _
    rw [separator, ensured _ _ _ colon, valueStart]
    change (skipJsonValue input _ >>= _) = _
    rw [value]
    rfl
  rw [memberStep, keyStart, if_neg closing, if_pos quote, read, named, afterValue, next]
  dsimp only
  rw [get]
  by_cases found : name = targetField
  · rw [if_pos found, if_pos (decide_eq_true found)]
  · rw [if_neg found, if_neg (by rw [decide_eq_true_eq]; exact found)]
    rcases marks with mark | mark
    · rw [mark]
      rfl
    · rw [mark]
      rfl

theorem member_loop_done (targetField : String) (range : Option (Nat × Nat))
    (step : memberStep strings input targetField index = .ok (.done range)) :
    memberLoop strings input targetField index = .ok range := by
  rw [memberLoop]
  split
  · rename_i error failed
    rw [step] at failed
    cases failed
  · rename_i other done
    rw [step, Except.ok.injEq, MemberStep.done.injEq] at done
    rw [done]
  · rename_i next again
    rw [step, Except.ok.injEq] at again
    cases again

theorem member_loop_again (targetField : String) (next : Nat)
    (step : memberStep strings input targetField index = .ok (.again next)) :
    memberLoop strings input targetField index = memberLoop strings input targetField next := by
  rw [memberLoop]
  split
  · rename_i error failed
    rw [step] at failed
    cases failed
  · rename_i other done
    rw [step, Except.ok.injEq] at done
    cases done
  · rename_i other again
    rw [step, Except.ok.injEq, MemberStep.again.injEq] at again
    rw [again]

theorem member_loop_empty (targetField : String) (blank : Bytes) (all : Blank blank) (here : At input index (blank ++ 125 :: rest)) :
    memberLoop strings input targetField index = .ok none := by
  have stop := skip_blank blank all 125 (by decide) here
  have close : input[index + blank.length]? = some 125 := at_get (at_past blank here)
  exact member_loop_done targetField none (by rw [memberStep, stop, if_pos close])

-- A turn for each member, until one has the name.
theorem member_loop (tokens : ReadsTokens lex) (json : ReadsJson lex reader strings) (targetField : String) (room : Nat)
    (blank : Bytes) (all : Blank blank) (first : Label × JsonText) (members : List (Label × JsonText))
    (valid : ValidMembers lex room (first :: members))
    (here : At input index ((membersText (first :: members)).drop 1 ++ (blank ++ 125 :: rest))) :
    memberLoop strings input targetField index = .ok (locate lex targetField index (first :: members)) := by
  induction members generalizing first index with
  | nil =>
      obtain ⟨label, tree⟩ := first
      obtain ⟨⟨blanks, name, key⟩, inner, _⟩ := valid
      have after : Blank (label.after ++ blank) := by
        intro byte member
        rcases List.mem_append.mp member with inside | inside
        · exact blanks.2.2.2 byte inside
        · exact all byte inside
      have laid : At input index (label.text ++ (tree.text ++ ((label.after ++ blank) ++ 125 :: rest))) := by
        simpa only [membersText, List.drop_succ_cons, List.drop_zero, List.append_assoc, List.append_nil, List.nil_append,
          List.cons_append]
          using here
      have step := member_step tokens json targetField label tree room blanks name key inner _ 125 (Or.inr rfl) after laid
      rw [locate, locate]
      by_cases found : label.name lex = targetField
      · rw [if_pos found] at step ⊢
        exact member_loop_done targetField _ step
      · rw [if_neg found, if_neg (by decide)] at step
        rw [if_neg found]
        exact member_loop_done targetField _ step
  | cons second members ih =>
      obtain ⟨label, tree⟩ := first
      obtain ⟨⟨blanks, name, key⟩, inner, others⟩ := valid
      obtain ⟨following, opened⟩ : ∃ following, membersText (second :: members) = 44 :: following := ⟨_, by rw [membersText]; rfl⟩
      have laid : At input index (label.text ++ (tree.text ++ (label.after ++ 44 :: (following ++ (blank ++ 125 :: rest))))) := by
        have written : (membersText ((label, tree) :: second :: members)).drop 1 = label.text ++ tree.text ++ label.after ++
          44 :: following := by
          rw [← opened]
          simp only [membersText, List.drop_succ_cons, List.drop_zero, List.cons_append]
        rw [written] at here
        simpa only [List.append_assoc, List.cons_append] using here
      have step := member_step tokens json targetField label tree room blanks name key inner _ 44 (Or.inl rfl) blanks.2.2.2 laid
      rw [locate]
      by_cases found : label.name lex = targetField
      · rw [if_pos found] at step ⊢
        exact member_loop_done targetField _ step
      · rw [if_neg found, if_pos rfl] at step
        rw [if_neg found, member_loop_again targetField _ step]
        refine ih second others ?_
        rw [opened, List.drop_succ_cons, List.drop_zero]
        exact at_next 44 (at_past _ (at_past _ (at_past _ laid)))

-- find_object_field_value on an object of the grammar.
theorem find_field (tokens : ReadsTokens lex) (json : ReadsJson lex reader strings) (targetField : String) (room : Nat)
    (members : List (Label × JsonText)) (blank : Bytes) (valid : (JsonText.object members blank).Valid lex room)
    (here : At input index ((JsonText.object members blank).text ++ rest)) :
    findObjectFieldValue strings input index targetField = .ok (locate lex targetField (index + 1) members) := by
  obtain ⟨_, all, valid⟩ := valid
  simp only [JsonText.text, List.cons_append, List.append_assoc, List.nil_append] at here
  have brace : input[index]? = some 123 := at_get here
  rw [findObjectFieldValue, ensured _ _ _ brace]
  cases members with
  | nil => exact member_loop_empty targetField blank all (at_next 123 here)
  | cons first members => exact member_loop tokens json targetField _ blank all first members valid (at_next 123 here)

end SessionSync.Workspace
