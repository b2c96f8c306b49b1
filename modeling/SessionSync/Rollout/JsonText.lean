import SessionSync.Rollout.SessionMeta

set_option autoImplicit false

namespace SessionSync.Rollout

open SessionSync.Core

-- The four blanks of the JSON grammar.
def isBlankByte (byte : UInt8) : Bool := byte = 32 || byte = 9 || byte = 10 || byte = 13

def Blank (text : Bytes) : Prop := ∀ byte ∈ text, isBlankByte byte = true

def isNumberByte (byte : UInt8) : Bool :=
  (48 ≤ byte && byte ≤ 57) || byte = 45 || byte = 43 || byte = 46 || byte = 101 || byte = 69

-- What may stand between two quotes: no quote and no backslash but in an escape.
inductive Escaped : Bytes → Prop where
  | done : Escaped []
  | plain (byte : UInt8) (rest : Bytes) (quote : byte ≠ 34) (backslash : byte ≠ 92) (more : Escaped rest) :
      Escaped (byte :: rest)
  | escape (byte : UInt8) (rest : Bytes) (more : Escaped rest) : Escaped (92 :: byte :: rest)

-- How serde_json reads the bytes of a number, and the bytes between two quotes.
structure Lexicon where
  number : Bytes → Option Number
  string : Bytes → Option String

structure ReadsTokens (lex : Lexicon) : Prop where
  number : ∀ token value, lex.number token = some value → token ≠ [] ∧ (∀ byte ∈ token, isNumberByte byte = true) ∧ value.WellFormed
  quoted : ∀ body text, lex.string body = some text → Escaped body
  written : ∀ text : String, lex.string (utf8 (text.toList.flatMap escapeChar)) = some text

-- The blanks around an element of an array.
structure Margin where
  before : Bytes
  after : Bytes

-- What stands around the value of a member: blanks, and the key between its quotes.
structure Label where
  before : Bytes
  key : Bytes
  gap : Bytes
  lead : Bytes
  after : Bytes

def Margin.Blank (margin : Margin) : Prop := Rollout.Blank margin.before ∧ Rollout.Blank margin.after

def Label.Blank (label : Label) : Prop :=
  Rollout.Blank label.before ∧ Rollout.Blank label.gap ∧ Rollout.Blank label.lead ∧ Rollout.Blank label.after

def Label.text (label : Label) : Bytes := label.before ++ 34 :: label.key ++ 34 :: label.gap ++ 58 :: label.lead

-- A JSON text as it is laid out: repeated keys, the order of the members and every blank
-- are still there.
inductive JsonText where
  | word (value : Option Bool)
  | number (token : Bytes)
  | string (body : Bytes)
  | array (elements : List (Margin × JsonText)) (blank : Bytes)
  | object (members : List (Label × JsonText)) (blank : Bytes)

def wordText : Option Bool → Bytes
  | none => [110, 117, 108, 108]
  | some true => [116, 114, 117, 101]
  | some false => [102, 97, 108, 115, 101]

def wordValue : Option Bool → Value
  | none => .null
  | some value => .bool value

mutual
-- A comma stands before every element, and the first of them is dropped.
def JsonText.text : JsonText → Bytes
  | .word value => wordText value
  | .number token => token
  | .string body => 34 :: body ++ [34]
  | .array elements blank => 91 :: (elementsText elements).drop 1 ++ blank ++ [93]
  | .object members blank => 123 :: (membersText members).drop 1 ++ blank ++ [125]
def elementsText : List (Margin × JsonText) → Bytes
  | [] => []
  | (margin, tree) :: rest => 44 :: margin.before ++ tree.text ++ margin.after ++ elementsText rest
def membersText : List (Label × JsonText) → Bytes
  | [] => []
  | (label, tree) :: rest => 44 :: label.text ++ tree.text ++ label.after ++ membersText rest
end

variable (lex : Lexicon)

def Label.name (label : Label) : String := (lex.string label.key).getD ""

mutual
def JsonText.value : JsonText → Value
  | .word value => wordValue value
  | .number token => ((lex.number token).map Value.number).getD .null
  | .string body => ((lex.string body).map Value.string).getD .null
  | .array elements _ => .array (elementsValue elements)
  | .object members _ => .object (membersValue members [])
def elementsValue : List (Margin × JsonText) → List Value
  | [] => []
  | (_, tree) :: rest => tree.value :: elementsValue rest
-- Map::insert, member by member: the last of a repeated key stays.
def membersValue : List (Label × JsonText) → Fields → Fields
  | [], fields => fields
  | (label, tree) :: rest, fields => membersValue rest (insertField (label.name lex) tree.value fields)
end

mutual
-- The grammar, with as many levels of nesting as there is room for.
def JsonText.Valid : Nat → JsonText → Prop
  | _, .word _ => True
  | _, .number token => ∃ value, lex.number token = some value
  | _, .string body => ∃ text, lex.string body = some text
  | room, .array elements blank => 0 < room ∧ Blank blank ∧ ValidElements (room - 1) elements
  | room, .object members blank => 0 < room ∧ Blank blank ∧ ValidMembers (room - 1) members
def ValidElements : Nat → List (Margin × JsonText) → Prop
  | _, [] => True
  | room, (margin, tree) :: rest => margin.Blank ∧ tree.Valid room ∧ ValidElements room rest
def ValidMembers : Nat → List (Label × JsonText) → Prop
  | _, [] => True
  | room, (label, tree) :: rest =>
      (label.Blank ∧ ∃ name, lex.string label.key = some name) ∧ tree.Valid room ∧ ValidMembers room rest
end

end SessionSync.Rollout
