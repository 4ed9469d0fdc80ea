import Mathlib.Algebra.Group.Nat.Defs
import Mathlib.Data.List.Basic
import RagProject.Lib.Python

/-! IP addresses as texts, as the standard library ipaddress reads and writes them. -/
namespace Python

/-- The scope of an IPv6 address, as it may stand behind the sign %. -/
structure ScopeId where
  text : List Char
  shows : text ≠ []
  percent : '%' ∉ text
  slash : '/' ∉ text
  deriving DecidableEq, Repr

inductive IpAddress where
  | v4 (value : Fin (2 ^ 32))
  | v6 (value : Fin (2 ^ 128)) (scope : Option ScopeId)
  deriving DecidableEq, Repr

def IpAddress.scope : IpAddress → Option ScopeId
  | .v4 _ => none
  | .v6 _ scope => scope

section Digits

/-- The value of a hexadecimal digit. -/
def hexValue (c : Char) : Nat :=
  if c.isDigit then c.toNat - '0'.toNat
  else if 'a' ≤ c ∧ c ≤ 'f' then c.toNat - 'a'.toNat + 10
  else c.toNat - 'A'.toNat + 10

def isHexDigit (c : Char) : Bool := c.isDigit || ('a' ≤ c && c ≤ 'f') || ('A' ≤ c && c ≤ 'F')

/-- int(text, base). -/
def ofDigits (base : Nat) (text : List Char) : Nat :=
  text.foldl (fun n c => n * base + hexValue c) 0

/-- The last places of a number, the highest first. -/
def places (base : Nat) : Nat → Nat → List Nat
  | 0, _ => []
  | k + 1, n => places base k (n / base) ++ [n % base]

def ofPlaces (base : Nat) (digits : List Nat) : Nat := digits.foldl (fun n d => n * base + d) 0

end Digits

section Reading

/-- _parse_octet. -/
def parseOctet (text : List Char) : Option Nat :=
  if text = [] ∨ ¬ text.all Char.isDigit ∨ 3 < text.length then none
  else if text ≠ ['0'] ∧ text.head? = some '0' then none
  else if 255 < ofDigits 10 text then none
  else some (ofDigits 10 text)

/-- IPv4Address(text). -/
def parseV4 (text : List Char) : Option (Fin (2 ^ 32)) :=
  if '/' ∈ text then none
  else
    match (text.splitOn '.').mapM parseOctet with
    | some [a, b, c, d] =>
      let value := ofPlaces 256 [a, b, c, d]
      -- Each of the four is at most 255.
      if bound : value < 2 ^ 32 then some ⟨value, bound⟩ else none
    | _ => none

/-- _parse_hextet. -/
def parseHextet (text : List Char) : Option Nat :=
  if ¬ text.all isHexDigit ∨ 4 < text.length ∨ text = [] then none else some (ofDigits 16 text)

/-- '%x' % n. -/
def hexText (n : Nat) : List Char := Nat.toDigits 16 n

/-- The parts of an IPv6 address, where an IPv4 address at the end counts as two. -/
def hextetParts (text : List Char) : Option (List (List Char)) :=
  let parts := text.splitOn ':'
  if parts.length < 3 then none
  else
    let last := parts.getLastD []
    if '.' ∈ last then do
      let tail ← parseV4 last
      return parts.dropLast ++ [hexText (tail / 65536), hexText (tail % 65536)]
    else some parts

/-- The parts before and after the double colon, and how many are left out. -/
def aroundColons (parts : List (List Char)) : Option (List (List Char) × Nat × List (List Char)) :=
  let interior := parts.tail.dropLast
  let first := parts.headD []
  let last := parts.getLastD []
  match interior.count [] with
  | 0 => if parts.length ≠ 8 ∨ first = [] ∨ last = [] then none else some (parts, 0, [])
  | 1 =>
    let skipIndex := interior.idxOf [] + 1
    let before := parts.take skipIndex
    let after := parts.drop (skipIndex + 1)
    -- An empty part at an end must belong to the double colon.
    if (first = [] ∧ before.length ≠ 1) ∨ (last = [] ∧ after.length ≠ 1) then none
    else
      let high := if first = [] then [] else before
      let low := if last = [] then [] else after
      if 8 ≤ high.length + low.length then none
      else some (high, 8 - (high.length + low.length), low)
  | _ => none

/-- _ip_int_from_string of IPv6. -/
def parseV6 (text : List Char) : Option (Fin (2 ^ 128)) := do
  let parts ← hextetParts text
  if 9 < parts.length then none
  else
    let (high, skipped, low) ← aroundColons parts
    let above ← high.mapM parseHextet
    let below ← low.mapM parseHextet
    let value := ofPlaces 65536 (above ++ List.replicate skipped 0 ++ below)
    -- There are eight, of at most four digits each.
    if bound : value < 2 ^ 128 then some ⟨value, bound⟩ else none

/-- _split_scope_id. -/
def splitScopeId (text : List Char) : Option (List Char × Option ScopeId) :=
  let address := text.takeWhile (· ≠ '%')
  match text.dropWhile (· ≠ '%') with
  | [] => some (address, none)
  | _ :: scope =>
    if ok : scope ≠ [] ∧ '%' ∉ scope ∧ '/' ∉ scope then
      some (address, some ⟨scope, ok.1, ok.2.1, ok.2.2⟩)
    else none

/-- ip_address(text). -/
def ipAddress (text : List Char) : Option IpAddress :=
  match parseV4 text with
  | some value => some (.v4 value)
  | none =>
    if '/' ∈ text then none
    else do
      let (address, scope) ← splitScopeId text
      let value ← parseV6 address
      return .v6 value scope

end Reading

section Writing

def octetTexts (value : Nat) : List (List Char) := (places 256 4 value).map (Nat.toDigits 10)

def hextetTexts (value : Nat) : List (List Char) := (places 65536 8 value).map hexText

/-- The loop of _compress_hextets: the run of zeros at hand, and the first longest one. -/
def zeroRuns : List (List Char) → Nat → Nat → Nat × Nat → Nat × Nat
  | [], _, _, best => best
  | hextet :: rest, index, length, best =>
    if hextet = ['0'] then
      let length := length + 1
      zeroRuns rest (index + 1) length
        (if best.2 < length then (index + 1 - length, length) else best)
    else zeroRuns rest (index + 1) 0 best

/-- _compress_hextets. -/
def compressHextets (hextets : List (List Char)) : List (List Char) :=
  let (start, length) := zeroRuns hextets 0 0 (0, 0)
  if 1 < length then
    (if start = 0 then [[]] else hextets.take start) ++ [] ::
      (if start + length = hextets.length then [[]] else hextets.drop (start + length))
  else hextets

/-- ip.compressed. -/
def IpAddress.compressed : IpAddress → List Char
  | .v4 value => ['.'].intercalate (octetTexts value)
  | .v6 value scope =>
    [':'].intercalate (compressHextets (hextetTexts value)) ++
      scope.elim [] fun scope => '%' :: scope.text

end Writing

section Networks

/-- The address of four octets, and of eight hextets. -/
def octets (a b c d : Nat) : Nat := ofPlaces 256 [a, b, c, d]

def hextets (a b c d e f g h : Nat) : Nat := ofPlaces 65536 [a, b, c, d, e, f, g, h]

/-- Membership in a network: the first bits of the address are those of the network. -/
def inNetwork (bits value : Nat) (network : Nat × Nat) : Bool :=
  value >>> (bits - network.2) == network.1 >>> (bits - network.2)

def privateV4 : List (Nat × Nat) :=
  [(octets 0 0 0 0, 8), (octets 10 0 0 0, 8), (octets 127 0 0 0, 8), (octets 169 254 0 0, 16),
    (octets 172 16 0 0, 12), (octets 192 0 0 0, 24), (octets 192 0 0 170, 31),
    (octets 192 0 2 0, 24), (octets 192 168 0 0, 16), (octets 198 18 0 0, 15),
    (octets 198 51 100 0, 24), (octets 203 0 113 0, 24), (octets 240 0 0 0, 4),
    (octets 255 255 255 255, 32)]

def privateExceptionsV4 : List (Nat × Nat) := [(octets 192 0 0 9, 32), (octets 192 0 0 10, 32)]

def privateV6 : List (Nat × Nat) :=
  [(hextets 0 0 0 0 0 0 0 1, 128), (hextets 0 0 0 0 0 0 0 0, 128),
    (hextets 0 0 0 0 0 0xffff 0 0, 96), (hextets 0x64 0xff9b 1 0 0 0 0 0, 48),
    (hextets 0x100 0 0 0 0 0 0 0, 64), (hextets 0x2001 0 0 0 0 0 0 0, 23),
    (hextets 0x2001 0xdb8 0 0 0 0 0 0, 32), (hextets 0x2002 0 0 0 0 0 0 0, 16),
    (hextets 0xfc00 0 0 0 0 0 0 0, 7), (hextets 0xfe80 0 0 0 0 0 0 0, 10)]

def privateExceptionsV6 : List (Nat × Nat) :=
  [(hextets 0x2001 1 0 0 0 0 0 1, 128), (hextets 0x2001 1 0 0 0 0 0 2, 128),
    (hextets 0x2001 3 0 0 0 0 0 0, 32), (hextets 0x2001 4 0x112 0 0 0 0 0, 48),
    (hextets 0x2001 0x20 0 0 0 0 0 0, 28), (hextets 0x2001 0x30 0 0 0 0 0 0, 28)]

def reservedV6 : List (Nat × Nat) :=
  [(0, 8), (hextets 0x100 0 0 0 0 0 0 0, 8), (hextets 0x200 0 0 0 0 0 0 0, 7),
    (hextets 0x400 0 0 0 0 0 0 0, 6), (hextets 0x800 0 0 0 0 0 0 0, 5),
    (hextets 0x1000 0 0 0 0 0 0 0, 4), (hextets 0x4000 0 0 0 0 0 0 0, 3),
    (hextets 0x6000 0 0 0 0 0 0 0, 3), (hextets 0x8000 0 0 0 0 0 0 0, 3),
    (hextets 0xa000 0 0 0 0 0 0 0, 3), (hextets 0xc000 0 0 0 0 0 0 0, 3),
    (hextets 0xe000 0 0 0 0 0 0 0, 4), (hextets 0xf000 0 0 0 0 0 0 0, 5),
    (hextets 0xf800 0 0 0 0 0 0 0, 6), (hextets 0xfe00 0 0 0 0 0 0 0, 9)]

def isPrivateV4 (value : Nat) : Bool :=
  privateV4.any (inNetwork 32 value) && privateExceptionsV4.all fun net => !inNetwork 32 value net

namespace IpAddress

/-- An IPv6 address that carries an IPv4 address counts as that address. -/
def plain : IpAddress → IpAddress
  | .v4 value => .v4 value
  | .v6 value scope =>
    if value.val >>> 32 = 0xffff then
      .v4 ⟨value.val % 4294967296, Nat.mod_lt _ (Nat.zero_lt_succ _)⟩
    else .v6 value scope

def isLoopback (ip : IpAddress) : Bool :=
  match ip.plain with
  | .v4 value => inNetwork 32 value (octets 127 0 0 0, 8)
  | .v6 value _ => value.val == 1

def isLinkLocal (ip : IpAddress) : Bool :=
  match ip.plain with
  | .v4 value => inNetwork 32 value (octets 169 254 0 0, 16)
  | .v6 value _ => inNetwork 128 value (hextets 0xfe80 0 0 0 0 0 0 0, 10)

def isMulticast (ip : IpAddress) : Bool :=
  match ip.plain with
  | .v4 value => inNetwork 32 value (octets 224 0 0 0, 4)
  | .v6 value _ => inNetwork 128 value (hextets 0xff00 0 0 0 0 0 0 0, 8)

def isUnspecified (ip : IpAddress) : Bool :=
  match ip.plain with
  | .v4 value => value.val == 0
  | .v6 value _ => value.val == 0

def isReserved (ip : IpAddress) : Bool :=
  match ip.plain with
  | .v4 value => inNetwork 32 value (octets 240 0 0 0, 4)
  | .v6 value _ => reservedV6.any (inNetwork 128 value)

def isPrivate (ip : IpAddress) : Bool :=
  match ip.plain with
  | .v4 value => isPrivateV4 value
  | .v6 value _ =>
    privateV6.any (inNetwork 128 value) &&
      privateExceptionsV6.all fun net => !inNetwork 128 value net

def isGlobal (ip : IpAddress) : Bool :=
  match ip.plain with
  | .v4 value => !inNetwork 32 value (octets 100 64 0 0, 10) && !isPrivateV4 value
  | .v6 _ _ => !ip.isPrivate

end IpAddress
end Networks
end Python
