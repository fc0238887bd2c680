import Mathlib.Algebra.Group.Nat.Defs
import ConversationService.Python.Text

/-!
# Bytes and SHA-256

`hashlib.sha256(data).hexdigest()`: the data is padded to blocks of 64 bytes, and every
block is mixed into a state of eight words of 32 bits.
-/

namespace ConversationService
namespace Python

abbrev Bytes : Type := List UInt8

/-- The bytes of one code point that is no surrogate. -/
def utf8Char (c : CodePoint) : Bytes :=
  let n := c.val
  if n < 0x80 then [UInt8.ofNat n]
  else if n < 0x800 then [UInt8.ofNat (0xC0 + n / 64), UInt8.ofNat (0x80 + n % 64)]
  else if n < 0x10000 then
    [UInt8.ofNat (0xE0 + n / 4096), UInt8.ofNat (0x80 + n / 64 % 64),
      UInt8.ofNat (0x80 + n % 64)]
  else
    [UInt8.ofNat (0xF0 + n / 262144), UInt8.ofNat (0x80 + n / 4096 % 64),
      UInt8.ofNat (0x80 + n / 64 % 64), UInt8.ofNat (0x80 + n % 64)]

/-- `s.encode("utf-8")`, or `none` where it raises because of a lone surrogate. -/
def utf8Encode (s : Text) : Option Bytes :=
  if s.any isSurrogate then none else some (s.flatMap utf8Char)

namespace Sha256

/-- The first 32 bits of the fractional parts of the cube roots of the first 64 primes. -/
def roundConstants : List (BitVec 32) :=
  [0x428a2f98, 0x71374491, 0xb5c0fbcf, 0xe9b5dba5, 0x3956c25b, 0x59f111f1, 0x923f82a4,
    0xab1c5ed5, 0xd807aa98, 0x12835b01, 0x243185be, 0x550c7dc3, 0x72be5d74, 0x80deb1fe,
    0x9bdc06a7, 0xc19bf174, 0xe49b69c1, 0xefbe4786, 0x0fc19dc6, 0x240ca1cc, 0x2de92c6f,
    0x4a7484aa, 0x5cb0a9dc, 0x76f988da, 0x983e5152, 0xa831c66d, 0xb00327c8, 0xbf597fc7,
    0xc6e00bf3, 0xd5a79147, 0x06ca6351, 0x14292967, 0x27b70a85, 0x2e1b2138, 0x4d2c6dfc,
    0x53380d13, 0x650a7354, 0x766a0abb, 0x81c2c92e, 0x92722c85, 0xa2bfe8a1, 0xa81a664b,
    0xc24b8b70, 0xc76c51a3, 0xd192e819, 0xd6990624, 0xf40e3585, 0x106aa070, 0x19a4c116,
    0x1e376c08, 0x2748774c, 0x34b0bcb5, 0x391c0cb3, 0x4ed8aa4a, 0x5b9cca4f, 0x682e6ff3,
    0x748f82ee, 0x78a5636f, 0x84c87814, 0x8cc70208, 0x90befffa, 0xa4506ceb, 0xbef9a3f7,
    0xc67178f2]

structure State where
  a : BitVec 32
  b : BitVec 32
  c : BitVec 32
  d : BitVec 32
  e : BitVec 32
  f : BitVec 32
  g : BitVec 32
  h : BitVec 32

def initialState : State :=
  ⟨0x6a09e667, 0xbb67ae85, 0x3c6ef372, 0xa54ff53a, 0x510e527f, 0x9b05688c, 0x1f83d9ab,
    0x5be0cd19⟩

/-- A one bit, zeros, and the length of the data in bits as a big-endian 64-bit number. -/
def pad (data : Bytes) : Bytes :=
  data ++ [0x80] ++ List.replicate ((119 - data.length % 64) % 64) 0 ++
    [56, 48, 40, 32, 24, 16, 8, 0].map (fun shift =>
      UInt8.ofNat (data.length * 8 / 2 ^ shift))

/-- Big-endian words of four bytes. -/
def words : Bytes -> List (BitVec 32)
  | b0 :: b1 :: b2 :: b3 :: rest =>
      BitVec.ofNat 32 (((b0.toNat * 256 + b1.toNat) * 256 + b2.toNat) * 256 + b3.toNat) ::
        words rest
  | _ => []

def smallSigma0 (x : BitVec 32) : BitVec 32 :=
  x.rotateRight 7 ^^^ x.rotateRight 18 ^^^ x >>> 3

def smallSigma1 (x : BitVec 32) : BitVec 32 :=
  x.rotateRight 17 ^^^ x.rotateRight 19 ^^^ x >>> 10

/-- The message schedule, last word first. -/
def scheduleRev : Nat -> List (BitVec 32) -> List (BitVec 32)
  | 0, recent => recent
  | rounds + 1, recent =>
      scheduleRev rounds
        ((smallSigma1 (recent.getD 1 0) + recent.getD 6 0 + smallSigma0 (recent.getD 14 0) +
          recent.getD 15 0) :: recent)

def round (s : State) (k w : BitVec 32) : State :=
  let bigSigma1 := s.e.rotateRight 6 ^^^ s.e.rotateRight 11 ^^^ s.e.rotateRight 25
  let choice := (s.e &&& s.f) ^^^ (~~~s.e &&& s.g)
  let t1 := s.h + bigSigma1 + choice + k + w
  let bigSigma0 := s.a.rotateRight 2 ^^^ s.a.rotateRight 13 ^^^ s.a.rotateRight 22
  let majority := (s.a &&& s.b) ^^^ (s.a &&& s.c) ^^^ (s.b &&& s.c)
  ⟨t1 + (bigSigma0 + majority), s.a, s.b, s.c, s.d + t1, s.e, s.f, s.g⟩

def compress (s : State) (block : List (BitVec 32)) : State :=
  let mixed := (roundConstants.zip (scheduleRev 48 block.reverse).reverse).foldl
    (fun s kw => round s kw.1 kw.2) s
  ⟨s.a + mixed.a, s.b + mixed.b, s.c + mixed.c, s.d + mixed.d, s.e + mixed.e, s.f + mixed.f,
    s.g + mixed.g, s.h + mixed.h⟩

def blocks : Nat -> State -> List (BitVec 32) -> State
  | 0, s, _ => s
  | count + 1, s, rest => blocks count (compress s (rest.take 16)) (rest.drop 16)

/-- The eight hexadecimal digits of a word. -/
def wordText (w : BitVec 32) : Text :=
  [28, 24, 20, 16, 12, 8, 4, 0].map (fun shift => digitChar (w.toNat / 2 ^ shift % 16))

end Sha256

open Sha256 in
/-- `hashlib.sha256(data).hexdigest()` -/
def sha256Hex (data : Bytes) : Text :=
  let padded := words (pad data)
  let s := blocks (padded.length / 16) initialState padded
  [s.a, s.b, s.c, s.d, s.e, s.f, s.g, s.h].flatMap wordText

example : sha256Hex [0x61, 0x62, 0x63] =
    text "ba7816bf8f01cfea414140de5dae2223b00361a396177a9cb410ff61f20015ad" := by
  decide +kernel

end Python
end ConversationService
