import SessionSync.Core.Canonical

set_option autoImplicit false

namespace SessionSync.Core.Sha256

-- FIPS 180-4, for runs of the model on concrete input. Theorems about the program
-- take any digest function.
def constants : List UInt32 :=
  [0x428a2f98, 0x71374491, 0xb5c0fbcf, 0xe9b5dba5, 0x3956c25b, 0x59f111f1, 0x923f82a4, 0xab1c5ed5, 0xd807aa98, 0x12835b01,
    0x243185be, 0x550c7dc3, 0x72be5d74, 0x80deb1fe, 0x9bdc06a7, 0xc19bf174, 0xe49b69c1, 0xefbe4786, 0x0fc19dc6, 0x240ca1cc,
    0x2de92c6f, 0x4a7484aa, 0x5cb0a9dc, 0x76f988da, 0x983e5152, 0xa831c66d, 0xb00327c8, 0xbf597fc7, 0xc6e00bf3, 0xd5a79147,
    0x06ca6351, 0x14292967, 0x27b70a85, 0x2e1b2138, 0x4d2c6dfc, 0x53380d13, 0x650a7354, 0x766a0abb, 0x81c2c92e, 0x92722c85,
    0xa2bfe8a1, 0xa81a664b, 0xc24b8b70, 0xc76c51a3, 0xd192e819, 0xd6990624, 0xf40e3585, 0x106aa070, 0x19a4c116, 0x1e376c08,
    0x2748774c, 0x34b0bcb5, 0x391c0cb3, 0x4ed8aa4a, 0x5b9cca4f, 0x682e6ff3, 0x748f82ee, 0x78a5636f, 0x84c87814, 0x8cc70208,
    0x90befffa, 0xa4506ceb, 0xbef9a3f7, 0xc67178f2]

structure Words where
  a : UInt32
  b : UInt32
  c : UInt32
  d : UInt32
  e : UInt32
  f : UInt32
  g : UInt32
  h : UInt32

def initial : Words :=
  ⟨0x6a09e667, 0xbb67ae85, 0x3c6ef372, 0xa54ff53a, 0x510e527f, 0x9b05688c, 0x1f83d9ab, 0x5be0cd19⟩

def rotate (word count : UInt32) : UInt32 := (word >>> count) ||| (word <<< (32 - count))

def pad (bytes : Bytes) : Bytes :=
  let bits := 8 * bytes.length
  bytes ++ (0x80 : UInt8) :: List.replicate ((119 - bytes.length % 64) % 64) (0 : UInt8) ++
    (List.range 8).map fun place => UInt8.ofNat (bits >>> (8 * (7 - place)))

def words : Bytes → List UInt32
  | a :: b :: c :: d :: rest => (a.toUInt32 <<< 24 ||| b.toUInt32 <<< 16 ||| c.toUInt32 <<< 8 ||| d.toUInt32) :: words rest
  | _ => []

-- The schedule, the latest word first.
def extend : Nat → List UInt32 → List UInt32
  | 0, words => words
  | count + 1, words =>
      let first := words.getD 14 0
      let last := words.getD 1 0
      let small := rotate first 7 ^^^ rotate first 18 ^^^ (first >>> 3)
      let large := rotate last 17 ^^^ rotate last 19 ^^^ (last >>> 10)
      extend count ((large + words.getD 6 0 + small + words.getD 15 0) :: words)

def turn (state : Words) (pair : UInt32 × UInt32) : Words :=
  let ⟨a, b, c, d, e, f, g, h⟩ := state
  let one := h + (rotate e 6 ^^^ rotate e 11 ^^^ rotate e 25) + ((e &&& f) ^^^ ((e ^^^ 0xFFFFFFFF) &&& g)) + pair.1 + pair.2
  let two := (rotate a 2 ^^^ rotate a 13 ^^^ rotate a 22) + ((a &&& b) ^^^ (a &&& c) ^^^ (b &&& c))
  ⟨one + two, a, b, c, d + one, e, f, g⟩

def compress (state : Words) (block : List UInt32) : Words :=
  let out := (constants.zip (extend 48 block.reverse).reverse).foldl turn state
  ⟨state.a + out.a, state.b + out.b, state.c + out.c, state.d + out.d, state.e + out.e, state.f + out.f, state.g + out.g,
    state.h + out.h⟩

def digest (bytes : Bytes) : Vector UInt8 32 :=
  let padded := words (pad bytes)
  let out := (List.range (padded.length / 16)).foldl (fun state block => compress state ((padded.drop (16 * block)).take 16)) initial
  let all := [out.a, out.b, out.c, out.d, out.e, out.f, out.g, out.h]
  Vector.ofFn fun place : Fin 32 => ((all.getD (place.val / 4) 0) >>> UInt32.ofNat (24 - 8 * (place.val % 4))).toUInt8

example : hexEncode (digest (utf8 "abc".toList)).toList =
    "ba7816bf8f01cfea414140de5dae2223b00361a396177a9cb410ff61f20015ad".toList := by decide +kernel

end SessionSync.Core.Sha256

namespace SessionSync.Core

-- A float text that tells every two floats apart.
def plainFloat (bits : UInt64) : String := String.ofList (Nat.toDigits 10 bits.toNat ++ ".0".toList)

theorem plain_floats (lib : Primitives) (plain : lib.floatText = plainFloat) : PrintsFloats lib := by
  have text : ∀ bits, (lib.floatText bits).toList = Nat.toDigits 10 bits.toNat ++ ".0".toList := by
    intro bits
    rw [plain, plainFloat, String.toList_ofList]
  refine ⟨fun left right _ _ same => ?_, fun bits _ => ?_, fun bits _ => ?_⟩
  · have digits := congrArg String.toList same
    rw [text, text] at digits
    exact UInt64.toNat_inj.mp (to_digits_injective _ _ (List.append_cancel_right digits))
  · rw [text, List.all_append, Bool.and_eq_true, List.all_eq_true]
    refine ⟨fun c member => ?_, by decide⟩
    simp [isNumeric, digit_numeric _ c member]
  · rw [text]
    exact ⟨'.', List.mem_append_right _ (by decide), Or.inl rfl⟩

def sampleLib : Primitives := { sha256 := Sha256.digest, floatText := plainFloat, isRfc3339 := fun _ => true }

theorem sample_floats : PrintsFloats sampleLib := plain_floats sampleLib rfl

end SessionSync.Core
