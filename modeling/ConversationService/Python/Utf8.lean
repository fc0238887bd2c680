import Mathlib.Data.List.Basic
import ConversationService.Python.Sha256

/-!
# Decoded bytes (`bytes.decode("utf-8")`)

The strict decoder refuses overlong forms, surrogates and what is above the last code point.
Bytes and text of ASCII are each other's code.
-/

namespace ConversationService
namespace Python

/-- The six bits of a continuation byte within bounds. -/
def continuation (low high : Nat) (b : Option UInt8) : Option Nat :=
  b.bind (fun b =>
    if low ≤ b.toNat ∧ b.toNat ≤ high then some (b.toNat - 0x80) else none)

/-- The code point that starts with a byte above ASCII, and the number of bytes behind that. -/
def utf8Multi (a : Nat) (rest : Bytes) : Option (Nat × Nat) :=
  if 0xC2 ≤ a ∧ a ≤ 0xDF then
    (continuation 0x80 0xBF rest[0]?).map (fun b => ((a - 0xC0) * 64 + b, 1))
  else if 0xE0 ≤ a ∧ a ≤ 0xEF then
    -- a second byte that is less would be overlong, one that is more a surrogate
    (continuation (if a = 0xE0 then 0xA0 else 0x80) (if a = 0xED then 0x9F else 0xBF)
      rest[0]?).bind (fun b =>
      (continuation 0x80 0xBF rest[1]?).map (fun c => (((a - 0xE0) * 64 + b) * 64 + c, 2)))
  else if 0xF0 ≤ a ∧ a ≤ 0xF4 then
    (continuation (if a = 0xF0 then 0x90 else 0x80) (if a = 0xF4 then 0x8F else 0xBF)
      rest[0]?).bind (fun b =>
      (continuation 0x80 0xBF rest[1]?).bind (fun c =>
        (continuation 0x80 0xBF rest[2]?).map (fun d =>
          ((((a - 0xF0) * 64 + b) * 64 + c) * 64 + d, 3))))
  else none

/-- The loop of the decoder; `skip` counts the rest of the bytes of the last code point. -/
def utf8DecodeFrom : Nat -> Bytes -> Option Text
  | _, [] => some []
  | skip + 1, _ :: rest => utf8DecodeFrom skip rest
  | 0, a :: rest =>
      if a.toNat < 0x80 then
        (utf8DecodeFrom 0 rest).map (fun more => Fin.ofNat 0x110000 a.toNat :: more)
      else
        (utf8Multi a.toNat rest).bind (fun point =>
          (utf8DecodeFrom point.2 rest).map (fun more =>
            Fin.ofNat 0x110000 point.1 :: more))

/-- `data.decode("utf-8")`, with `none` where it raises. -/
def utf8Decode (data : Bytes) : Option Text :=
  utf8DecodeFrom 0 data

/-!
# ASCII
-/

theorem utf8Decode_ascii {data : Bytes} (h : forall b, b ∈ data -> b.toNat < 0x80) :
    utf8Decode data = some (data.map (fun b => Fin.ofNat 0x110000 b.toNat)) := by
  unfold utf8Decode
  induction data with
  | nil => rfl
  | cons b data ih =>
      rw [utf8DecodeFrom, if_pos (h b List.mem_cons_self),
        ih (fun d hd => h d (List.mem_cons_of_mem b hd))]
      rfl

theorem utf8Encode_ascii {s : Text} (h : forall c, c ∈ s -> c.val < 0x80) :
    utf8Encode s = some (s.map (fun c => UInt8.ofNat c.val)) := by
  have hsurrogate : s.any isSurrogate = false := by
    apply List.any_eq_false.mpr
    intro c hc
    have hlow := h c hc
    unfold isSurrogate
    rw [decide_eq_false (by omega), Bool.false_and]
    exact Bool.false_ne_true
  have hchars : s.flatMap utf8Char = s.map (fun c => UInt8.ofNat c.val) := by
    rw [List.map_eq_flatMap]
    apply List.flatMap_congr
    intro c hc
    exact if_pos (h c hc)
  unfold utf8Encode
  rw [hsurrogate, if_neg Bool.false_ne_true, hchars]

theorem map_toNat_map_ofNat {s : Text} (h : forall c, c ∈ s -> c.val < 0x80) :
    (s.map (fun c => UInt8.ofNat c.val)).map (fun b => Fin.ofNat 0x110000 b.toNat) = s := by
  have hchar : forall c, c ∈ s -> Fin.ofNat 0x110000 (UInt8.ofNat c.val).toNat = id c := by
    intro c hc
    have hbyte : (UInt8.ofNat c.val).toNat = c.val := by
      rw [UInt8.toNat_ofNat']
      exact Nat.mod_eq_of_lt (lt_trans (h c hc) (by decide))
    rw [hbyte]
    exact Fin.ext (Nat.mod_eq_of_lt c.isLt)
  rw [List.map_map]
  exact (List.map_congr_left hchar).trans (List.map_id s)

theorem map_ofNat_map_toNat (data : Bytes) :
    (data.map (fun b => Fin.ofNat 0x110000 b.toNat)).map (fun c => UInt8.ofNat c.val) = data := by
  have hbyte : forall b, b ∈ data -> UInt8.ofNat (Fin.ofNat 0x110000 b.toNat).val = id b := by
    intro b _
    have hchar : (Fin.ofNat 0x110000 b.toNat).val = b.toNat :=
      Nat.mod_eq_of_lt (lt_trans b.toNat_lt (by decide))
    rw [hchar]
    exact UInt8.ofNat_toNat
  rw [List.map_map]
  exact (List.map_congr_left hbyte).trans (List.map_id data)

theorem utf8Decode_encode {s : Text} {data : Bytes} (h : forall c, c ∈ s -> c.val < 0x80)
    (hdata : utf8Encode s = some data) : utf8Decode data = some s := by
  rw [utf8Encode_ascii h] at hdata
  cases hdata
  rw [utf8Decode_ascii, map_toNat_map_ofNat h]
  intro b hb
  rcases List.mem_map.mp hb with ⟨c, hc, rfl⟩
  rw [UInt8.toNat_ofNat', Nat.mod_eq_of_lt (lt_trans (h c hc) (by decide))]
  exact h c hc

theorem utf8Encode_decode {s : Text} {data : Bytes} (h : forall b, b ∈ data -> b.toNat < 0x80)
    (hs : utf8Decode data = some s) : utf8Encode s = some data := by
  rw [utf8Decode_ascii h] at hs
  cases hs
  rw [utf8Encode_ascii, map_ofNat_map_toNat]
  intro c hc
  rcases List.mem_map.mp hc with ⟨b, hb, rfl⟩
  have hchar : (Fin.ofNat 0x110000 b.toNat).val = b.toNat :=
    Nat.mod_eq_of_lt (lt_trans b.toNat_lt (by decide))
  rw [hchar]
  exact h b hb

end Python
end ConversationService
