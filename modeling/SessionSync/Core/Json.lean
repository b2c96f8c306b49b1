import Std.Data.ExtTreeMap
import Mathlib.Data.List.Sort
import Mathlib.Tactic.IntervalCases

set_option autoImplicit false

namespace SessionSync.Core

abbrev Bytes := List UInt8

-- What the repository takes from crates that are not in the tree: SHA-256, the
-- decimal text of a finite f64, and whether chrono reads a text as RFC 3339.
-- Nothing is assumed about any of them.
structure Primitives where
  sha256 : Bytes → Vector UInt8 32
  floatText : UInt64 → String
  isRfc3339 : String → Bool

-- serde_json::Number. A float is kept by its bits and is never NaN or infinite.
inductive Number where
  | posInt (value : UInt64)
  | negInt (value : Int64)
  | float (bits : UInt64)
deriving DecidableEq, Repr

-- serde_json::Value. An object lists its fields in printing order: key order for
-- a parsed serde_json::Map, declaration order for a derived Serialize.
inductive Value where
  | null
  | bool (value : Bool)
  | number (value : Number)
  | string (value : String)
  | array (values : List Value)
  | object (fields : List (String × Value))

namespace Value

def asStr : Value → Option String
  | .string value => some value
  | _ => none

def maxI64 : Nat := 2 ^ 63 - 1

def asI64 : Value → Option Int
  | .number (.posInt value) => if value.toNat ≤ maxI64 then some value.toNat else none
  | .number (.negInt value) => some value.toInt
  | _ => none

def nat (value : UInt64) : Value := .number (.posInt value)

-- An i64 field prints with its sign; serde_json keeps the two cases apart.
def int (value : Int64) : Value :=
  if value < 0 then .number (.negInt value) else .number (.posInt value.toUInt64)

def option {α : Type} (encode : α → Value) : Option α → Value
  | none => .null
  | some value => encode value

end Value

def utf8 (text : List Char) : Bytes := text.flatMap String.utf8EncodeChar

def hexDigit (value : Nat) : Char := (Nat.digitChar value)

def hexByte (byte : UInt8) : List Char := [hexDigit (byte.toNat / 16), hexDigit (byte.toNat % 16)]

-- hex::encode, two lower-case digits a byte.
def hexEncode (bytes : Bytes) : List Char := bytes.flatMap hexByte

def digestBytes (lib : Primitives) (bytes : Bytes) : String :=
  String.ofList ("sha256:".toList ++ hexEncode (lib.sha256 bytes).toList)

abbrev Uuid := BitVec 128

instance uuidTrans : Std.TransOrd Uuid := inferInstance

instance uuidLawful : LawfulBEq Uuid := inferInstance

def Uuid.version (id : Uuid) : Nat := (id.toNat >>> 76) % 16

-- The hyphenated lower-case form.
def Uuid.text (id : Uuid) : String :=
  let digits := (List.range 32).map fun place => hexDigit ((id.toNat >>> (4 * (31 - place))) % 16)
  String.ofList (digits.take 8 ++ '-' :: (digits.drop 8).take 4 ++ '-' :: (digits.drop 12).take 4 ++
    '-' :: (digits.drop 16).take 4 ++ '-' :: digits.drop 20)

-- serde_json's string escapes: the two-letter forms, \u00xx below U+0020, and
-- every other character as it is.
def escapeChar (c : Char) : List Char :=
  if c = '"' then ['\\', '"']
  else if c = '\\' then ['\\', '\\']
  else if c.toNat = 8 then ['\\', 'b']
  else if c.toNat = 9 then ['\\', 't']
  else if c.toNat = 10 then ['\\', 'n']
  else if c.toNat = 12 then ['\\', 'f']
  else if c.toNat = 13 then ['\\', 'r']
  else if c.toNat < 32 then '\\' :: 'u' :: '0' :: '0' :: hexByte (UInt8.ofNat c.toNat)
  else [c]

def writeString (text : String) : List Char := '"' :: text.toList.flatMap escapeChar ++ ['"']

def writeNumber (lib : Primitives) : Number → List Char
  | .posInt value => Nat.toDigits 10 value.toNat
  | .negInt value => '-' :: Nat.toDigits 10 value.toInt.natAbs
  | .float bits => (lib.floatText bits).toList

mutual
-- serde_json::to_vec without a pretty printer, fields in the order they stand.
def writeJson (lib : Primitives) : Value → List Char
  | .null => "null".toList
  | .bool value => (if value then "true" else "false").toList
  | .number value => writeNumber lib value
  | .string text => writeString text
  | .array values => '[' :: writeElements lib values ++ [']']
  | .object fields => '{' :: writeFields lib fields ++ ['}']
def writeElements (lib : Primitives) : List Value → List Char
  | [] => []
  | [value] => writeJson lib value
  | value :: next :: rest => writeJson lib value ++ ',' :: writeElements lib (next :: rest)
def writeFields (lib : Primitives) : List (String × Value) → List Char
  | [] => []
  | [(key, value)] => writeString key ++ ':' :: writeJson lib value
  | (key, value) :: next :: rest =>
      writeString key ++ ':' :: writeJson lib value ++ ',' :: writeFields lib (next :: rest)
end

mutual
def sortKeys : Value → Value
  | .null => .null
  | .bool value => .bool value
  | .number value => .number value
  | .string text => .string text
  | .array values => .array (sortElements values)
  | .object fields => .object ((sortFields fields).insertionSort (fun a b => a.1 ≤ b.1))
def sortElements : List Value → List Value
  | [] => []
  | value :: rest => sortKeys value :: sortElements rest
def sortFields : List (String × Value) → List (String × Value)
  | [] => []
  | (key, value) :: rest => (key, sortKeys value) :: sortFields rest
end

-- canonical_json and canonical_json_v4: the same writer over sorted keys.
def canonicalJson (lib : Primitives) (value : Value) : Bytes := utf8 (writeJson lib (sortKeys value))

def toVec (lib : Primitives) (value : Value) : Bytes := utf8 (writeJson lib value)

-- char::is_whitespace, the Unicode White_Space property.
def isWhitespace (c : Char) : Bool :=
  let code := c.toNat
  (9 ≤ code && code ≤ 13) || code = 0x20 || code = 0x85 || code = 0xA0 || code = 0x1680 ||
    (0x2000 ≤ code && code ≤ 0x200A) || code = 0x2028 || code = 0x2029 || code = 0x202F ||
    code = 0x205F || code = 0x3000

-- `text.trim().is_empty()`.
def isBlank (text : String) : Bool := text.toList.all isWhitespace

def isLowerHex (c : Char) : Bool := ('0' ≤ c && c ≤ '9') || ('a' ≤ c && c ≤ 'f')

-- validate_sha256 and validate_sha256_v4 read bytes; a non-ASCII character has no
-- byte in either range, so the two readings accept the same texts.
def validSha256 (text : String) : Bool :=
  match text.toList.splitAt 7 with
  | (start, digest) => start = "sha256:".toList && digest.length = 64 && digest.all isLowerHex

theorem hex_digit_lower (value : Nat) (bound : value < 16) : isLowerHex (hexDigit value) = true := by
  interval_cases value <;> decide

theorem hex_encode_length (bytes : Bytes) : (hexEncode bytes).length = 2 * bytes.length := by
  induction bytes with
  | nil => rfl
  | cons byte rest ih =>
      simp only [hexEncode, List.flatMap_cons, List.length_append, List.length_cons] at ih ⊢
      simp only [ih, hexByte, List.length_cons, List.length_nil]
      omega

theorem hex_encode_lower (bytes : Bytes) : (hexEncode bytes).all isLowerHex = true := by
  rw [List.all_eq_true]
  intro c member
  obtain ⟨byte, _, digit⟩ := List.mem_flatMap.mp member
  have bound := byte.toNat_lt
  simp only [hexByte, List.mem_cons, List.not_mem_nil, or_false] at digit
  rcases digit with rfl | rfl
  · exact hex_digit_lower _ (by omega)
  · exact hex_digit_lower _ (by omega)

theorem digest_bytes_split (lib : Primitives) (bytes : Bytes) :
    (digestBytes lib bytes).toList.splitAt 7 = ("sha256:".toList, hexEncode (lib.sha256 bytes).toList) := by
  have written : (digestBytes lib bytes).toList = "sha256:".toList ++ hexEncode (lib.sha256 bytes).toList :=
    String.toList_ofList
  have size : "sha256:".toList.length = 7 := by decide
  rw [written, List.splitAt_eq, List.take_left' size, List.drop_left' size]

theorem digest_bytes_valid (lib : Primitives) (bytes : Bytes) : validSha256 (digestBytes lib bytes) = true := by
  have length : (hexEncode (lib.sha256 bytes).toList).length = 64 := by
    have size : (lib.sha256 bytes).toList.length = 32 := Vector.length_toList
    have digits := hex_encode_length (lib.sha256 bytes).toList
    omega
  unfold validSha256
  rw [digest_bytes_split]
  simp only [length, hex_encode_lower, decide_true, Bool.and_self]

end SessionSync.Core
