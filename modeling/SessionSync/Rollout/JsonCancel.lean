import SessionSync.Rollout.JsonText
import SessionSync.Lib.Checked

set_option autoImplicit false

namespace SessionSync.Rollout

open SessionSync.Core Checked

def strip (text : Bytes) : Bytes := text.dropWhile isBlankByte

theorem strip_blank (blank rest : Bytes) (all : Blank blank) : strip (blank ++ rest) = strip rest := by
  induction blank with
  | nil => rfl
  | cons byte blank ih =>
      have more : Blank blank := fun other member => all other (List.mem_cons_of_mem _ member)
      rw [strip, List.cons_append, List.dropWhile_cons_of_pos (all byte List.mem_cons_self)]
      exact ih more

theorem strip_solid (byte : UInt8) (rest : Bytes) (solid : isBlankByte byte = false) : strip (byte :: rest) = byte :: rest :=
  List.dropWhile_cons_of_neg (by rw [solid]; exact Bool.false_ne_true)

-- What may follow a value in a document.
def isTerminator (byte : UInt8) : Bool := byte = 44 || byte = 93 || byte = 125 || isBlankByte byte

def Ends (rest : Bytes) : Prop := ∀ byte, rest.head? = some byte → isTerminator byte = true

theorem ends_cons (byte : UInt8) (rest : Bytes) (ends : isTerminator byte = true) : Ends (byte :: rest) := by
  intro other head
  rw [List.head?_cons, Option.some.injEq] at head
  exact head ▸ ends

theorem ends_blank (blank rest : Bytes) (all : Blank blank) (ends : Ends rest) : Ends (blank ++ rest) := by
  cases blank with
  | nil => exact ends
  | cons byte blank => exact ends_cons byte _ (by rw [isTerminator, all byte List.mem_cons_self, Bool.or_true])

theorem every_byte (p : UInt8 → Prop) (all : ∀ code < 256, p (UInt8.ofNat code)) (byte : UInt8) : p byte := by
  rw [← UInt8.ofNat_toNat (x := byte)]
  exact all _ byte.toNat_lt

theorem number_not_terminator (byte : UInt8) : isNumberByte byte = true → isTerminator byte = false :=
  every_byte (fun byte => isNumberByte byte = true → isTerminator byte = false) (by decide +kernel) byte

theorem string_cancel (left right : Bytes) (leftEscaped : Escaped left) (rightEscaped : Escaped right) (a b : Bytes)
    (same : left ++ 34 :: a = right ++ 34 :: b) : left = right ∧ a = b := by
  induction leftEscaped generalizing right with
  | done =>
      cases rightEscaped with
      | done => exact ⟨rfl, (List.cons.inj same).2⟩
      | plain byte rest quote backslash more => exact absurd (List.cons.inj same).1.symm quote
      | escape byte rest more => exact absurd (List.cons.inj same).1 (by decide)
  | plain byte rest quote backslash more ih =>
      cases rightEscaped with
      | done => exact absurd (List.cons.inj same).1 quote
      | plain other others quote' backslash' more' =>
          obtain ⟨head, tail⟩ := List.cons.inj same
          obtain ⟨equal, after⟩ := ih others more' tail
          exact ⟨by rw [head, equal], after⟩
      | escape other others more' => exact absurd (List.cons.inj same).1 backslash
  | escape byte rest more ih =>
      cases rightEscaped with
      | done => exact absurd (List.cons.inj same).1 (by decide)
      | plain other others quote' backslash' more' => exact absurd (List.cons.inj same).1.symm backslash'
      | escape other others more' =>
          obtain ⟨second, tail⟩ := List.cons.inj (List.cons.inj same).2
          obtain ⟨equal, after⟩ := ih others more' tail
          exact ⟨by rw [second, equal], after⟩

theorem token_cancel (left right : Bytes) (leftNumber : ∀ byte ∈ left, isNumberByte byte = true)
    (rightNumber : ∀ byte ∈ right, isNumberByte byte = true) (a b : Bytes) (leftEnds : Ends a) (rightEnds : Ends b)
    (same : left ++ a = right ++ b) : left = right ∧ a = b := by
  have stops : ∀ token rest : Bytes, (∀ byte ∈ token, isNumberByte byte = true) → Ends rest →
      (token ++ rest).takeWhile isNumberByte = token := by
    intro token rest number ends
    rw [List.takeWhile_append_of_pos number]
    cases rest with
    | nil => simp
    | cons byte rest =>
        have stop : isNumberByte byte = false := by
          by_contra digit
          rw [Bool.not_eq_false] at digit
          have terminates := ends byte rfl
          rw [number_not_terminator byte digit] at terminates
          cases terminates
        simp [stop]
  have equal : left = right := by rw [← stops left a leftNumber leftEnds, same, stops right b rightNumber rightEnds]
  rw [equal] at same
  exact ⟨equal, List.append_cancel_left same⟩

def kindOf (byte : UInt8) : Nat :=
  if byte = 110 then 0 else if byte = 116 then 1 else if byte = 102 then 2
  else if byte = 34 then 3 else if byte = 91 then 4 else if byte = 123 then 5
  else if isNumberByte byte then 6 else 7

def wordKind : Option Bool → Nat
  | none => 0
  | some true => 1
  | some false => 2

theorem word_kind_injective (left right : Option Bool) (same : wordKind left = wordKind right) : left = right := by
  rcases left with _ | _ | _ <;> rcases right with _ | _ | _ <;> first | rfl | cases same

theorem word_kind_small (value : Option Bool) : wordKind value < 3 := by
  rcases value with _ | _ | _ <;> decide

def JsonText.kind : JsonText → Nat
  | .word value => wordKind value
  | .string _ => 3
  | .array _ _ => 4
  | .object _ _ => 5
  | .number _ => 6

theorem number_kind (byte : UInt8) : isNumberByte byte = true → kindOf byte = 6 :=
  every_byte (fun byte => isNumberByte byte = true → kindOf byte = 6) (by decide +kernel) byte

-- A byte that opens a value is none of the marks between values.
theorem kind_solid (byte : UInt8) : kindOf byte < 7 → isTerminator byte = false :=
  every_byte (fun byte => kindOf byte < 7 → isTerminator byte = false) (by decide +kernel) byte

-- What stands between the brackets of a container: its items, each after a comma, of which
-- the first is dropped.
def Items (text : Bytes) : Prop :=
  text = [] ∨ ∃ blank byte rest, text = 44 :: (blank ++ byte :: rest) ∧ Blank blank ∧ isTerminator byte = false

theorem items_open (left right a b : Bytes) (leftItems : Items left) (rightItems : Items right)
    (aSolid : ∃ byte rest, strip a = byte :: rest ∧ isTerminator byte = true)
    (bSolid : ∃ byte rest, strip b = byte :: rest ∧ isTerminator byte = true)
    (same : left.drop 1 ++ a = right.drop 1 ++ b) : strip (left ++ a) = strip (right ++ b) := by
  have clash : ∀ blank byte rest c, Blank blank → isTerminator byte = false →
      (∃ byte rest, strip c = byte :: rest ∧ isTerminator byte = true) → c ≠ blank ++ byte :: rest := by
    intro blank byte rest c blanks opens solid equal
    obtain ⟨mark, more, stripped, ends⟩ := solid
    have unblank : isBlankByte byte = false := by
      rw [isTerminator, Bool.or_eq_false_iff] at opens
      exact opens.2
    rw [equal, strip_blank blank _ blanks, strip_solid byte rest unblank] at stripped
    rw [(List.cons.inj stripped).1, ends] at opens
    cases opens
  rcases leftItems with none | ⟨blank, byte, rest, text, blanks, opens⟩
  · rcases rightItems with none' | ⟨blank, byte, rest, text, blanks, opens⟩
    · rw [none, none'] at same ⊢
      exact congrArg strip same
    · rw [none, text] at same
      exact absurd (same.trans (List.append_assoc _ _ _)) (clash blank byte (rest ++ b) a blanks opens aSolid)
  · rcases rightItems with none' | ⟨blank', byte', rest', text', blanks', opens'⟩
    · rw [none', text] at same
      exact absurd (same.symm.trans (List.append_assoc _ _ _)) (clash blank byte (rest ++ a) b blanks opens bSolid)
    · rw [text, text'] at same ⊢
      exact congrArg (fun text => strip (44 :: text)) same

variable {lex : Lexicon} (tokens : ReadsTokens lex)

include tokens in
theorem text_head (tree : JsonText) (room : Nat) (valid : tree.Valid lex room) :
    ∃ byte rest, tree.text = byte :: rest ∧ kindOf byte = tree.kind ∧ kindOf byte < 7 := by
  cases tree with
  | word value =>
      cases value with
      | none => exact ⟨110, _, rfl, rfl, by decide⟩
      | some value =>
          cases value with
          | false => exact ⟨102, _, rfl, rfl, by decide⟩
          | true => exact ⟨116, _, rfl, rfl, by decide⟩
  | number token =>
      obtain ⟨value, read⟩ := valid
      obtain ⟨some, digits, _⟩ := tokens.number token value read
      cases token with
      | nil => exact absurd rfl some
      | cons byte rest =>
          have kind := number_kind byte (digits byte List.mem_cons_self)
          exact ⟨byte, rest, by rw [JsonText.text], kind, by rw [kind]; decide⟩
  | string body => exact ⟨34, body ++ [34], by rw [JsonText.text]; rfl, rfl, by decide⟩
  | array elements blank => exact ⟨91, _, by rw [JsonText.text]; rfl, rfl, by decide⟩
  | object members blank => exact ⟨123, _, by rw [JsonText.text]; rfl, rfl, by decide⟩

include tokens in
theorem strip_text (tree : JsonText) (room : Nat) (valid : tree.Valid lex room) (rest : Bytes) :
    strip (tree.text ++ rest) = tree.text ++ rest := by
  obtain ⟨byte, more, text, _, opens⟩ := text_head tokens tree room valid
  have solid := kind_solid byte opens
  rw [isTerminator, Bool.or_eq_false_iff] at solid
  rw [text, List.cons_append]
  exact strip_solid byte _ solid.2

include tokens in
theorem same_kind (left right : JsonText) (room other : Nat) (leftValid : left.Valid lex room) (rightValid : right.Valid lex other)
    (a b : Bytes) (same : left.text ++ a = right.text ++ b) : left.kind = right.kind := by
  obtain ⟨byte, more, text, kind, _⟩ := text_head tokens left room leftValid
  obtain ⟨byte', more', text', kind', _⟩ := text_head tokens right other rightValid
  rw [text, text', List.cons_append, List.cons_append, List.cons.injEq] at same
  rw [← kind, ← kind', same.1]

include tokens in
theorem elements_items (room : Nat) (elements : List (Margin × JsonText)) (valid : ValidElements lex room elements) :
    Items (elementsText elements) := by
  match elements, valid with
  | [], _ => exact Or.inl rfl
  | (margin, tree) :: rest, valid =>
      obtain ⟨byte, more, text, _, opens⟩ := text_head tokens tree room valid.2.1
      refine Or.inr ⟨margin.before, byte, more ++ margin.after ++ elementsText rest, ?_, valid.1.1, kind_solid byte opens⟩
      simp only [elementsText, text, List.cons_append, List.append_assoc]

theorem members_items (room : Nat) (members : List (Label × JsonText)) (valid : ValidMembers lex room members) :
    Items (membersText members) := by
  match members, valid with
  | [], _ => exact Or.inl rfl
  | (label, tree) :: rest, valid =>
      refine Or.inr ⟨label.before, 34, label.key ++ 34 :: label.gap ++ 58 :: label.lead ++ tree.text ++ label.after ++
        membersText rest, ?_, valid.1.1.1, by decide⟩
      simp only [membersText, Label.text, List.cons_append, List.append_assoc]

theorem close_solid (blank rest : Bytes) (all : Blank blank) (close : UInt8) (solid : isBlankByte close = false)
    (ends : isTerminator close = true) : ∃ byte more, strip (blank ++ close :: rest) = byte :: more ∧ isTerminator byte = true :=
  ⟨close, rest, by rw [strip_blank blank _ all, strip_solid close rest solid], ends⟩

theorem elements_ends (elements : List (Margin × JsonText)) (rest : Bytes) (ends : Ends rest) :
    Ends (elementsText elements ++ rest) := by
  cases elements with
  | nil => exact ends
  | cons element elements => exact ends_cons 44 _ (by decide)

theorem members_ends (members : List (Label × JsonText)) (rest : Bytes) (ends : Ends rest) : Ends (membersText members ++ rest) := by
  cases members with
  | nil => exact ends
  | cons member members => exact ends_cons 44 _ (by decide)

mutual
-- A text without its blanks.
def JsonText.bare : JsonText → JsonText
  | .word value => .word value
  | .number token => .number token
  | .string body => .string body
  | .array elements _ => .array (bareElements elements) []
  | .object members _ => .object (bareMembers members) []
def bareElements : List (Margin × JsonText) → List (Margin × JsonText)
  | [] => []
  | (_, tree) :: rest => (⟨[], []⟩, tree.bare) :: bareElements rest
def bareMembers : List (Label × JsonText) → List (Label × JsonText)
  | [] => []
  | (label, tree) :: rest => (⟨[], label.key, [], [], []⟩, tree.bare) :: bareMembers rest
end

mutual
theorem value_bare (tree : JsonText) : tree.bare.value lex = tree.value lex := by
  cases tree with
  | word value => rfl
  | number token => rfl
  | string body => rfl
  | array elements blank => rw [JsonText.bare, JsonText.value, JsonText.value, elements_bare elements]
  | object members blank => rw [JsonText.bare, JsonText.value, JsonText.value, members_bare members]
theorem elements_bare (elements : List (Margin × JsonText)) :
    elementsValue lex (bareElements elements) = elementsValue lex elements := by
  match elements with
  | [] => rfl
  | (margin, tree) :: rest => rw [bareElements, elementsValue, elementsValue, value_bare tree, elements_bare rest]
theorem members_bare (members : List (Label × JsonText)) : membersValue lex (bareMembers members) = membersValue lex members := by
  match members with
  | [] => rfl
  | (label, tree) :: rest =>
      funext fields
      rw [bareMembers, membersValue, membersValue, value_bare tree, members_bare rest, Label.name, Label.name]
end

mutual
-- A value followed by what may follow one is laid out in one way, up to blanks.
theorem text_cancel (tokens : ReadsTokens lex) (left right : JsonText) (room other : Nat) (leftValid : left.Valid lex room)
    (rightValid : right.Valid lex other) (a b : Bytes) (leftEnds : Ends a) (rightEnds : Ends b)
    (same : left.text ++ a = right.text ++ b) : left.bare = right.bare ∧ a = b := by
  have kinds := same_kind tokens left right room other leftValid rightValid a b same
  cases left with
  | word left =>
      have small := word_kind_small left
      cases right with
      | word word =>
          rw [word_kind_injective left word kinds] at same ⊢
          exact ⟨rfl, List.append_cancel_left same⟩
      | _ =>
          simp only [JsonText.kind] at kinds
          omega
  | number left =>
      cases right with
      | number right =>
          obtain ⟨value, read⟩ := leftValid
          obtain ⟨other, written⟩ := rightValid
          rw [JsonText.text, JsonText.text] at same
          obtain ⟨token, after⟩ := token_cancel left right (tokens.number left value read).2.1 (tokens.number right other written).2.1
            a b leftEnds rightEnds same
          exact ⟨by rw [token], after⟩
      | word word =>
          have small := word_kind_small word
          simp only [JsonText.kind] at kinds
          omega
      | _ => simp only [JsonText.kind, Nat.reduceEqDiff] at kinds
  | string left =>
      cases right with
      | string right =>
          obtain ⟨value, read⟩ := leftValid
          obtain ⟨other, written⟩ := rightValid
          simp only [JsonText.text, List.cons_append, List.append_assoc, List.nil_append, List.cons.injEq, true_and] at same
          obtain ⟨body, after⟩ :=
            string_cancel left right (tokens.quoted left value read) (tokens.quoted right other written) a b same
          exact ⟨by rw [body], after⟩
      | word word =>
          have small := word_kind_small word
          simp only [JsonText.kind] at kinds
          omega
      | _ => simp only [JsonText.kind, Nat.reduceEqDiff] at kinds
  | array left blank =>
      cases right with
      | array right gap =>
          obtain ⟨_, leftBlank, leftValid⟩ := leftValid
          obtain ⟨_, rightBlank, rightValid⟩ := rightValid
          simp only [JsonText.text, List.cons_append, List.append_assoc, List.nil_append, List.cons.injEq, true_and] at same
          have opened := items_open _ _ _ _ (elements_items tokens _ left leftValid) (elements_items tokens _ right rightValid)
            (close_solid blank a leftBlank 93 (by decide) (by decide)) (close_solid gap b rightBlank 93 (by decide) (by decide)) same
          obtain ⟨values, after⟩ :=
            elements_cancel tokens left right _ _ leftValid rightValid blank gap a b leftBlank rightBlank opened
          exact ⟨by rw [JsonText.bare, JsonText.bare, values], after⟩
      | word word =>
          have small := word_kind_small word
          simp only [JsonText.kind] at kinds
          omega
      | _ => simp only [JsonText.kind, Nat.reduceEqDiff] at kinds
  | object left blank =>
      cases right with
      | object right gap =>
          obtain ⟨_, leftBlank, leftValid⟩ := leftValid
          obtain ⟨_, rightBlank, rightValid⟩ := rightValid
          simp only [JsonText.text, List.cons_append, List.append_assoc, List.nil_append, List.cons.injEq, true_and] at same
          have opened := items_open _ _ _ _ (members_items _ left leftValid) (members_items _ right rightValid)
            (close_solid blank a leftBlank 125 (by decide) (by decide))
              (close_solid gap b rightBlank 125 (by decide) (by decide)) same
          obtain ⟨values, after⟩ :=
            members_cancel tokens left right _ _ leftValid rightValid blank gap a b leftBlank rightBlank opened
          exact ⟨by rw [JsonText.bare, JsonText.bare, values], after⟩
      | word word =>
          have small := word_kind_small word
          simp only [JsonText.kind] at kinds
          omega
      | _ => simp only [JsonText.kind, Nat.reduceEqDiff] at kinds
theorem elements_cancel (tokens : ReadsTokens lex) (left right : List (Margin × JsonText)) (room other : Nat)
    (leftValid : ValidElements lex room left) (rightValid : ValidElements lex other right) (blank gap a b : Bytes)
    (leftBlank : Blank blank) (rightBlank : Blank gap)
    (same : strip (elementsText left ++ (blank ++ 93 :: a)) = strip (elementsText right ++ (gap ++ 93 :: b))) :
    bareElements left = bareElements right ∧ a = b := by
  have closed : ∀ blank rest, Blank blank → strip (blank ++ 93 :: rest) = 93 :: rest := by
    intro blank rest all
    rw [strip_blank blank _ all, strip_solid 93 rest (by decide)]
  match left, right with
  | [], [] =>
      rw [elementsText, List.nil_append, List.nil_append, closed _ _ leftBlank, closed _ _ rightBlank] at same
      exact ⟨rfl, (List.cons.inj same).2⟩
  | [], (margin, tree) :: rest =>
      simp only [elementsText, List.nil_append, List.cons_append] at same
      rw [closed _ _ leftBlank, strip_solid 44 _ (by decide)] at same
      cases same
  | (margin, tree) :: rest, [] =>
      simp only [elementsText, List.nil_append, List.cons_append] at same
      rw [closed _ _ rightBlank, strip_solid 44 _ (by decide)] at same
      cases same
  | (margin, tree) :: rest, (margin', tree') :: rest' =>
      obtain ⟨leftMargin, leftTree, leftRest⟩ := leftValid
      obtain ⟨rightMargin, rightTree, rightRest⟩ := rightValid
      simp only [elementsText, List.cons_append, List.append_assoc] at same
      rw [strip_solid 44 _ (by decide), strip_solid 44 _ (by decide), List.cons.injEq] at same
      have begun := congrArg strip same.2
      rw [strip_blank _ _ leftMargin.1, strip_blank _ _ rightMargin.1, strip_text tokens tree room leftTree,
        strip_text tokens tree' other rightTree] at begun
      have ends : ∀ blank rest, Blank blank → Ends (blank ++ 93 :: rest) := fun blank rest all =>
        ends_blank blank _ all (ends_cons 93 rest (by decide))
      obtain ⟨value, tail⟩ := text_cancel tokens tree tree' room other leftTree rightTree _ _
        (ends_blank _ _ leftMargin.2 (elements_ends rest _ (ends blank a leftBlank)))
        (ends_blank _ _ rightMargin.2 (elements_ends rest' _ (ends gap b rightBlank))) begun
      have stripped := congrArg strip tail
      rw [strip_blank _ _ leftMargin.2, strip_blank _ _ rightMargin.2] at stripped
      obtain ⟨values, after⟩ :=
        elements_cancel tokens rest rest' room other leftRest rightRest blank gap a b leftBlank rightBlank stripped
      exact ⟨by rw [bareElements, bareElements, value, values], after⟩
theorem members_cancel (tokens : ReadsTokens lex) (left right : List (Label × JsonText)) (room other : Nat)
    (leftValid : ValidMembers lex room left) (rightValid : ValidMembers lex other right) (blank gap a b : Bytes)
    (leftBlank : Blank blank) (rightBlank : Blank gap)
    (same : strip (membersText left ++ (blank ++ 125 :: a)) = strip (membersText right ++ (gap ++ 125 :: b))) :
    bareMembers left = bareMembers right ∧ a = b := by
  have closed : ∀ blank rest, Blank blank → strip (blank ++ 125 :: rest) = 125 :: rest := by
    intro blank rest all
    rw [strip_blank blank _ all, strip_solid 125 rest (by decide)]
  match left, right with
  | [], [] =>
      rw [membersText, List.nil_append, List.nil_append, closed _ _ leftBlank, closed _ _ rightBlank] at same
      exact ⟨rfl, (List.cons.inj same).2⟩
  | [], (label, tree) :: rest =>
      simp only [membersText, List.nil_append, List.cons_append] at same
      rw [closed _ _ leftBlank, strip_solid 44 _ (by decide)] at same
      cases same
  | (label, tree) :: rest, [] =>
      simp only [membersText, List.nil_append, List.cons_append] at same
      rw [closed _ _ rightBlank, strip_solid 44 _ (by decide)] at same
      cases same
  | (label, tree) :: rest, (label', tree') :: rest' =>
      obtain ⟨⟨leftLabel, name, leftKey⟩, leftTree, leftRest⟩ := leftValid
      obtain ⟨⟨rightLabel, name', rightKey⟩, rightTree, rightRest⟩ := rightValid
      simp only [membersText, Label.text, List.cons_append, List.append_assoc] at same
      rw [strip_solid 44 _ (by decide), strip_solid 44 _ (by decide), List.cons.injEq] at same
      have begun := congrArg strip same.2
      rw [strip_blank _ _ leftLabel.1, strip_blank _ _ rightLabel.1, strip_solid 34 _ (by decide), strip_solid 34 _ (by decide),
        List.cons.injEq] at begun
      obtain ⟨key, colon⟩ := string_cancel _ _ (tokens.quoted _ name leftKey) (tokens.quoted _ name' rightKey) _ _ begun.2
      have separated := congrArg strip colon
      rw [strip_blank _ _ leftLabel.2.1, strip_blank _ _ rightLabel.2.1, strip_solid 58 _ (by decide), strip_solid 58 _ (by decide),
        List.cons.injEq] at separated
      have opened := congrArg strip separated.2
      rw [strip_blank _ _ leftLabel.2.2.1, strip_blank _ _ rightLabel.2.2.1, strip_text tokens tree room leftTree,
        strip_text tokens tree' other rightTree] at opened
      have ends : ∀ blank rest, Blank blank → Ends (blank ++ 125 :: rest) := fun blank rest all =>
        ends_blank blank _ all (ends_cons 125 rest (by decide))
      obtain ⟨value, tail⟩ := text_cancel tokens tree tree' room other leftTree rightTree _ _
        (ends_blank _ _ leftLabel.2.2.2 (members_ends rest _ (ends blank a leftBlank)))
        (ends_blank _ _ rightLabel.2.2.2 (members_ends rest' _ (ends gap b rightBlank))) opened
      have stripped := congrArg strip tail
      rw [strip_blank _ _ leftLabel.2.2.2, strip_blank _ _ rightLabel.2.2.2] at stripped
      obtain ⟨values, after⟩ :=
        members_cancel tokens rest rest' room other leftRest rightRest blank gap a b leftBlank rightBlank stripped
      exact ⟨by rw [bareMembers, bareMembers, key, value, values], after⟩
end

-- serde_json gives up at the 128th level of nesting.
def recursionLimit : Nat := 127

variable (lex) in
def Reads (text : Bytes) (tree : JsonText) : Prop :=
  tree.Valid lex recursionLimit ∧ ∃ before after, Blank before ∧ Blank after ∧ text = before ++ (tree.text ++ after)

include tokens in
theorem reads_bare (text : Bytes) (left right : JsonText) (leftReads : Reads lex text left) (rightReads : Reads lex text right) :
    left.bare = right.bare := by
  obtain ⟨leftValid, before, after, leftBefore, leftAfter, written⟩ := leftReads
  obtain ⟨rightValid, before', after', rightBefore, rightAfter, written'⟩ := rightReads
  have same := congrArg strip (written.symm.trans written')
  rw [strip_blank _ _ leftBefore, strip_blank _ _ rightBefore, strip_text tokens left _ leftValid,
    strip_text tokens right _ rightValid] at same
  have ends : ∀ blank, Blank blank → Ends blank := by
    intro blank all
    rw [← List.append_nil blank]
    exact ends_blank blank [] all fun byte none => by cases none
  exact (text_cancel tokens left right _ _ leftValid rightValid after after' (ends after leftAfter) (ends after' rightAfter) same).1

include tokens in
theorem reads_unique (text : Bytes) (left right : JsonText) (leftReads : Reads lex text left) (rightReads : Reads lex text right) :
    left.value lex = right.value lex := by
  rw [← value_bare left, reads_bare tokens text left right leftReads rightReads, value_bare right]

mutual
theorem text_formed (tokens : ReadsTokens lex) (tree : JsonText) (room : Nat) (valid : tree.Valid lex room) :
    WellFormed (tree.value lex) := by
  cases tree with
  | word value => cases value <;> trivial
  | number token =>
      obtain ⟨value, read⟩ := valid
      rw [JsonText.value, read]
      exact (tokens.number token value read).2.2
  | string body =>
      obtain ⟨text, read⟩ := valid
      rw [JsonText.value, read]
      trivial
  | array elements blank => exact elements_formed tokens elements _ valid.2.2
  | object members blank =>
      exact (members_formed tokens members _ valid.2.2 [] List.Pairwise.nil trivial).symm
theorem elements_formed (tokens : ReadsTokens lex) (elements : List (Margin × JsonText)) (room : Nat)
    (valid : ValidElements lex room elements) : WellFormedElements (elementsValue lex elements) := by
  match elements with
  | [] => trivial
  | (margin, tree) :: rest => exact ⟨text_formed tokens tree room valid.2.1, elements_formed tokens rest room valid.2.2⟩
theorem members_formed (tokens : ReadsTokens lex) (members : List (Label × JsonText)) (room : Nat)
    (valid : ValidMembers lex room members) (fields : Fields) (sorted : KeysSorted fields) (formed : WellFormedFields fields) :
    KeysSorted (membersValue lex members fields) ∧ WellFormedFields (membersValue lex members fields) := by
  match members with
  | [] => exact ⟨sorted, formed⟩
  | (label, tree) :: rest =>
      exact members_formed tokens rest room valid.2.2 _ (insert_sorted _ _ _ sorted)
        (insert_formed _ _ _ (text_formed tokens tree room valid.2.1) formed)
end

variable (lex) in
def ReadsString (text : Bytes) (read : String) : Prop :=
  ∃ body before after, Blank before ∧ Blank after ∧ text = before ++ (34 :: body ++ 34 :: after) ∧ lex.string body = some read

include tokens in
theorem string_unique (text : Bytes) (left right : String) (leftReads : ReadsString lex text left)
    (rightReads : ReadsString lex text right) : left = right := by
  obtain ⟨body, before, after, leftBefore, leftAfter, written, read⟩ := leftReads
  obtain ⟨body', before', after', rightBefore, rightAfter, written', read'⟩ := rightReads
  have same := congrArg strip (written.symm.trans written')
  rw [strip_blank _ _ leftBefore, strip_blank _ _ rightBefore, List.cons_append, List.cons_append, strip_solid 34 _ (by decide),
    strip_solid 34 _ (by decide), List.cons.injEq] at same
  have bodies := (string_cancel body body' (tokens.quoted body left read) (tokens.quoted body' right read') after after' same.2).1
  rw [bodies, read', Option.some.injEq] at read
  exact read.symm

-- What serde_json reads is what the grammar lays out.
structure ReadsJson (lex : Lexicon) (reader : Reader) (strings : Bytes → Except String String) : Prop where
  value : ∀ text value, reader.parse text = .ok value ↔ ∃ tree, Reads lex text tree ∧ tree.value lex = value
  string : ∀ text read, strings text = .ok read ↔ ReadsString lex text read

open Classical in
noncomputable def grammarReader (tokens : ReadsTokens lex) : Reader where
  parse text := if read : ∃ tree, Reads lex text tree then .ok (read.choose.value lex) else .error "expected value"
  formed body value parsed := by
    by_cases read : ∃ tree, Reads lex body tree
    · rw [dif_pos read, Except.ok.injEq] at parsed
      exact parsed ▸ text_formed tokens _ _ read.choose_spec.1
    · rw [dif_neg read] at parsed
      cases parsed

open Classical in
noncomputable def grammarStrings (lex : Lexicon) (text : Bytes) : Except String String :=
  if read : ∃ read, ReadsString lex text read then .ok read.choose else .error "expected string"

-- The grammar is unambiguous, so that a reader of it exists.
theorem grammar_reads : ReadsJson lex (grammarReader tokens) (grammarStrings lex) where
  value text value := by
    by_cases read : ∃ tree, Reads lex text tree
    · simp only [grammarReader, dif_pos read, Except.ok.injEq]
      constructor
      · intro same
        exact ⟨read.choose, read.choose_spec, same⟩
      · intro found
        obtain ⟨tree, reads, same⟩ := found
        rw [← same]
        exact reads_unique tokens text _ tree read.choose_spec reads
    · simp only [grammarReader, dif_neg read]
      exact iff_of_false (error_ne_ok _ _) fun ⟨tree, reads, _⟩ => read ⟨tree, reads⟩
  string text value := by
    by_cases read : ∃ value, ReadsString lex text value
    · simp only [grammarStrings, dif_pos read, Except.ok.injEq]
      constructor
      · intro same
        exact same ▸ read.choose_spec
      · intro reads
        exact string_unique tokens text _ value read.choose_spec reads
    · simp only [grammarStrings, dif_neg read]
      exact iff_of_false (error_ne_ok _ _) fun reads => read ⟨value, reads⟩

end SessionSync.Rollout
