import ConversationService.Python.Sha256
import ConversationService.Python.Uuid

/-!
# Name-based UUIDs

`uuid.uuid5(namespace, name)`: the first 128 bits of the SHA-1 of the namespace and the
name, with the version and the variant put in.
-/

namespace ConversationService
namespace Python

namespace Sha1

structure State where
  a : BitVec 32
  b : BitVec 32
  c : BitVec 32
  d : BitVec 32
  e : BitVec 32

def initialState : State :=
  ⟨0x67452301, 0xefcdab89, 0x98badcfe, 0x10325476, 0xc3d2e1f0⟩

/-- The message schedule, last word first. -/
def scheduleRev : Nat -> List (BitVec 32) -> List (BitVec 32)
  | 0, recent => recent
  | rounds + 1, recent =>
      scheduleRev rounds
        ((recent.getD 2 0 ^^^ recent.getD 7 0 ^^^ recent.getD 13 0 ^^^
          recent.getD 15 0).rotateLeft 1 :: recent)

/-- The function and the constant of a round. -/
def mix (round : Nat) (s : State) : BitVec 32 :=
  if round < 20 then ((s.b &&& s.c) ||| (~~~s.b &&& s.d)) + 0x5a827999
  else if round < 40 then (s.b ^^^ s.c ^^^ s.d) + 0x6ed9eba1
  else if round < 60 then
    ((s.b &&& s.c) ||| (s.b &&& s.d) ||| (s.c &&& s.d)) + 0x8f1bbcdc
  else (s.b ^^^ s.c ^^^ s.d) + 0xca62c1d6

def round (s : State) (wi : BitVec 32 × Nat) : State :=
  ⟨s.a.rotateLeft 5 + mix wi.2 s + s.e + wi.1, s.a, s.b.rotateLeft 30, s.c, s.d⟩

def compress (s : State) (block : List (BitVec 32)) : State :=
  let mixed := (scheduleRev 64 block.reverse).reverse.zipIdx.foldl round s
  ⟨s.a + mixed.a, s.b + mixed.b, s.c + mixed.c, s.d + mixed.d, s.e + mixed.e⟩

def blocks : Nat -> State -> List (BitVec 32) -> State
  | 0, s, _ => s
  | count + 1, s, rest => blocks count (compress s (rest.take 16)) (rest.drop 16)

end Sha1

open Sha1 in
/-- The SHA-1 of the data, which is padded as for SHA-256. -/
def sha1 (data : Bytes) : BitVec 160 :=
  let padded := Sha256.words (Sha256.pad data)
  let s := blocks (padded.length / 16) initialState padded
  s.a ++ s.b ++ s.c ++ s.d ++ s.e

/-- `u.bytes` -/
def UUID.bytes (u : UUID) : Bytes :=
  [120, 112, 104, 96, 88, 80, 72, 64, 56, 48, 40, 32, 24, 16, 8, 0].map (fun shift =>
    UInt8.ofNat (u.int / 2 ^ shift))

/-- `uuid.uuid5(namespace, name)` for a name that can be encoded. -/
def uuid5 (space : UUID) (name : Bytes) : UUID :=
  let hash := (sha1 (space.bytes ++ name)).extractLsb' 32 128
  -- version 5 in bits 76 to 79, variant 2 in bits 62 and 63
  let versioned := (hash &&& ~~~(0xF000#128 <<< 64)) ||| (0x5000#128 <<< 64)
  ⟨(versioned &&& ~~~(0xC000#128 <<< 48)) ||| (0x8000#128 <<< 48)⟩

example : uuid5 (.ofInt 0x6ba7b8109dad11d180b400c04fd430c8) [0x78] =
    .ofInt 0x5b16a0146c656ddbd6ec6dfb4a1427a := by
  decide +kernel

end Python
end ConversationService
