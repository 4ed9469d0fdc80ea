import Mathlib.Algebra.Group.Nat.Defs
import Mathlib.Data.List.Basic

/-! SHA-256 of a text in UTF-8, as a lower-case hexadecimal digest. -/
namespace Sha256

def roundConstants : List UInt32 :=
  [0x428a2f98, 0x71374491, 0xb5c0fbcf, 0xe9b5dba5, 0x3956c25b, 0x59f111f1, 0x923f82a4, 0xab1c5ed5,
   0xd807aa98, 0x12835b01, 0x243185be, 0x550c7dc3, 0x72be5d74, 0x80deb1fe, 0x9bdc06a7, 0xc19bf174,
   0xe49b69c1, 0xefbe4786, 0x0fc19dc6, 0x240ca1cc, 0x2de92c6f, 0x4a7484aa, 0x5cb0a9dc, 0x76f988da,
   0x983e5152, 0xa831c66d, 0xb00327c8, 0xbf597fc7, 0xc6e00bf3, 0xd5a79147, 0x06ca6351, 0x14292967,
   0x27b70a85, 0x2e1b2138, 0x4d2c6dfc, 0x53380d13, 0x650a7354, 0x766a0abb, 0x81c2c92e, 0x92722c85,
   0xa2bfe8a1, 0xa81a664b, 0xc24b8b70, 0xc76c51a3, 0xd192e819, 0xd6990624, 0xf40e3585, 0x106aa070,
   0x19a4c116, 0x1e376c08, 0x2748774c, 0x34b0bcb5, 0x391c0cb3, 0x4ed8aa4a, 0x5b9cca4f, 0x682e6ff3,
   0x748f82ee, 0x78a5636f, 0x84c87814, 0x8cc70208, 0x90befffa, 0xa4506ceb, 0xbef9a3f7, 0xc67178f2]

/-- The eight words of a hash value. -/
structure State where
  a : UInt32
  b : UInt32
  c : UInt32
  d : UInt32
  e : UInt32
  f : UInt32
  g : UInt32
  h : UInt32
  deriving DecidableEq, Repr

def initial : State :=
  ⟨0x6a09e667, 0xbb67ae85, 0x3c6ef372, 0xa54ff53a, 0x510e527f, 0x9b05688c, 0x1f83d9ab, 0x5be0cd19⟩

def rotateRight (x n : UInt32) : UInt32 := (x >>> n) ||| (x <<< (32 - n))

def round (s : State) (word : UInt32) : State :=
  let high := rotateRight s.e 6 ^^^ rotateRight s.e 11 ^^^ rotateRight s.e 25
  let choice := (s.e &&& s.f) ^^^ (~~~s.e &&& s.g)
  let first := s.h + high + choice + word
  let low := rotateRight s.a 2 ^^^ rotateRight s.a 13 ^^^ rotateRight s.a 22
  let majority := (s.a &&& s.b) ^^^ (s.a &&& s.c) ^^^ (s.b &&& s.c)
  ⟨first + low + majority, s.a, s.b, s.c, s.d + first, s.e, s.f, s.g⟩

/-- The schedule is kept with its last word first. -/
def nextWord (words : List UInt32) : UInt32 :=
  let small (x p q r : UInt32) := rotateRight x p ^^^ rotateRight x q ^^^ (x >>> r)
  small (words.getD 1 0) 17 19 10 + words.getD 6 0 + small (words.getD 14 0) 7 18 3 +
    words.getD 15 0

def schedule : Nat → List UInt32 → List UInt32
  | 0, words => words
  | more + 1, words => schedule more (nextWord words :: words)

def bigEndian (bytes : List UInt8) : UInt32 :=
  bytes.foldl (fun word byte => (word <<< 8) ||| byte.toUInt32) 0

def wordsOf : List UInt8 → List UInt32
  | a :: b :: c :: d :: rest => bigEndian [a, b, c, d] :: wordsOf rest
  | _ => []

def compress (s : State) (words : List UInt32) : State :=
  let t := ((schedule 48 words.reverse).reverse.zipWith (· + ·) roundConstants).foldl round s
  ⟨s.a + t.a, s.b + t.b, s.c + t.c, s.d + t.d, s.e + t.e, s.f + t.f, s.g + t.g, s.h + t.h⟩

def blocks : Nat → List UInt32 → State → State
  | 0, _, s => s
  | more + 1, words, s => blocks more (words.drop 16) (compress s (words.take 16))

/-- A one, zeros, and the number of bits in eight bytes. -/
def padded (message : List UInt8) : List UInt8 :=
  let length := (List.range 8).map fun i => UInt8.ofNat (8 * message.length / 256 ^ (7 - i))
  message ++ 0x80 :: List.replicate ((119 - message.length % 64) % 64) 0 ++ length

def digest (message : List UInt8) : State :=
  let bytes := padded message
  blocks (bytes.length / 64) (wordsOf bytes) initial

def hexDigits (word : UInt32) : List Char :=
  (List.range 8).map fun i => Nat.digitChar (word.toNat / 16 ^ (7 - i) % 16)

def hex (s : State) : String :=
  String.ofList ([s.a, s.b, s.c, s.d, s.e, s.f, s.g, s.h].flatMap hexDigits)

theorem digitChar_hex {n : Nat} (small : n < 16) :
    Nat.digitChar n ∈ "0123456789abcdef".toList := by
  have each : ∀ m < 16, Nat.digitChar m ∈ "0123456789abcdef".toList := by decide
  exact each n small

theorem hex_chars (s : State) :
    (hex s).toList.length = 64 ∧ ∀ c ∈ (hex s).toList, c ∈ "0123456789abcdef".toList := by
  unfold hex
  rw [String.toList_ofList]
  constructor
  · simp [hexDigits]
  · intro c member
    obtain ⟨word, _, inner⟩ := List.mem_flatMap.mp member
    obtain ⟨i, _, rfl⟩ := List.mem_map.mp inner
    exact digitChar_hex (Nat.mod_lt _ (by decide))

/-- text.encode("utf-8"). -/
def utf8 (text : String) : List UInt8 := text.toList.flatMap String.utf8EncodeChar

/-- hashlib.sha256(text.encode("utf-8")).hexdigest(). -/
def hexDigest (text : String) : String :=
  hex (digest (text.toList.flatMap String.utf8EncodeChar))

example : hexDigest "abc" =
    "ba7816bf8f01cfea414140de5dae2223b00361a396177a9cb410ff61f20015ad" := by
  decide +kernel

section Keyed

def wordBytes (word : UInt32) : List UInt8 :=
  [(word >>> 24).toUInt8, (word >>> 16).toUInt8, (word >>> 8).toUInt8, word.toUInt8]

def State.bytes (s : State) : List UInt8 :=
  [s.a, s.b, s.c, s.d, s.e, s.f, s.g, s.h].flatMap wordBytes

/-- The key in a block of its own. -/
def keyBlock (key : List UInt8) : List UInt8 :=
  let short := if 64 < key.length then (digest key).bytes else key
  short ++ List.replicate (64 - short.length) 0

/-- hmac.new(key, message, "sha256").hexdigest(). -/
def keyedHexDigest (key message : List UInt8) : String :=
  let inner := digest ((keyBlock key).map (· ^^^ 0x36) ++ message)
  hex (digest ((keyBlock key).map (· ^^^ 0x5c) ++ inner.bytes))

example : keyedHexDigest (utf8 "Jefe") (utf8 "what do ya want for nothing?") =
    "5bdcc146bf60754e6a042426089575c75a003f089d2739839dec58b964ec3843" := by
  decide +kernel

end Keyed
end Sha256
