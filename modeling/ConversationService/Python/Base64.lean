import Mathlib.Data.Nat.Basic
import ConversationService.Python.Sha256

/-!
# Base64 (`base64.urlsafe_b64encode`, `base64.urlsafe_b64decode`)

The decoder is the lenient one: what is not of the alphabet is passed over, and padding counts
only where a group may end. What is encoded is decoded again.
-/

namespace ConversationService
namespace Python
namespace Base64

/-- `=` -/
def pad : UInt8 := 0x3D

/-- The character of six bits, in the URL-safe alphabet. -/
def alphabet (v : Nat) : UInt8 :=
  if v < 26 then UInt8.ofNat (0x41 + v)
  else if v < 52 then UInt8.ofNat (0x61 + (v - 26))
  else if v < 62 then UInt8.ofNat (0x30 + (v - 52))
  else if v = 62 then 0x2D
  else 0x5F

/-- The six bits of a character; `-` and `_` are translated to `+` and `/` before. -/
def sextet (c : UInt8) : Option Nat :=
  let n := c.toNat
  if 0x41 ≤ n ∧ n ≤ 0x5A then some (n - 0x41)
  else if 0x61 ≤ n ∧ n ≤ 0x7A then some (n - 0x61 + 26)
  else if 0x30 ≤ n ∧ n ≤ 0x39 then some (n - 0x30 + 52)
  else if n = 0x2B ∨ n = 0x2D then some 62
  else if n = 0x2F ∨ n = 0x5F then some 63
  else none

/-- `urlsafe_b64encode(data)` -/
def urlsafeB64encode : Bytes -> Bytes
  | [] => []
  | [a] => [alphabet (a.toNat / 4), alphabet (a.toNat % 4 * 16), pad, pad]
  | [a, b] =>
      [alphabet (a.toNat / 4), alphabet (a.toNat % 4 * 16 + b.toNat / 16),
        alphabet (b.toNat % 16 * 4), pad]
  | a :: b :: c :: rest =>
      alphabet (a.toNat / 4) :: alphabet (a.toNat % 4 * 16 + b.toNat / 16) ::
        alphabet (b.toNat % 16 * 4 + c.toNat / 64) :: alphabet (c.toNat % 64) ::
        urlsafeB64encode rest

/--
`binascii.a2b_base64` from a place in a group on, with the bits that are left of the last
character and the padding since it. It raises at the end within a group.
-/
def a2b (quadPos left pads : Nat) : Bytes -> Option Bytes
  | [] => if quadPos = 0 then some [] else none
  | c :: rest =>
      if c = pad then
        if 2 ≤ quadPos then
          -- what is behind the padding is not read
          if 4 ≤ quadPos + (pads + 1) then some [] else a2b quadPos left (pads + 1) rest
        else a2b quadPos left pads rest
      else
        match sextet c with
        | none => a2b quadPos left pads rest
        | some v =>
            match quadPos with
            | 0 => a2b 1 v 0 rest
            | 1 => (a2b 2 (v % 16) 0 rest).map (fun more => UInt8.ofNat (left * 4 + v / 16) :: more)
            | 2 => (a2b 3 (v % 4) 0 rest).map (fun more => UInt8.ofNat (left * 16 + v / 4) :: more)
            | _ => (a2b 0 0 0 rest).map (fun more => UInt8.ofNat (left * 64 + v) :: more)

/-- `urlsafe_b64decode(data)`, with `none` where it raises. -/
def urlsafeB64decode (data : Bytes) : Option Bytes :=
  a2b 0 0 0 data

/-!
# The alphabet
-/

theorem sextet_alphabet : forall v, v < 64 -> sextet (alphabet v) = some v := by
  decide

theorem alphabet_ne_pad : forall v, v < 64 -> alphabet v ≠ pad := by
  decide

theorem alphabet_ascii : forall v, v < 64 -> (alphabet v).toNat < 0x80 := by
  decide

theorem a2b_alphabet {quadPos left pads v : Nat} (hv : v < 64) (rest : Bytes) :
    a2b quadPos left pads (alphabet v :: rest) =
      match quadPos with
      | 0 => a2b 1 v 0 rest
      | 1 => (a2b 2 (v % 16) 0 rest).map (fun more => UInt8.ofNat (left * 4 + v / 16) :: more)
      | 2 => (a2b 3 (v % 4) 0 rest).map (fun more => UInt8.ofNat (left * 16 + v / 4) :: more)
      | _ => (a2b 0 0 0 rest).map (fun more => UInt8.ofNat (left * 64 + v) :: more) := by
  rw [a2b, if_neg (alphabet_ne_pad v hv), sextet_alphabet v hv]

/-!
# Groups
-/

theorem a2b_first (a : UInt8) {n : Nat} (hn : n < 16) (pads : Nat) (rest : Bytes) :
    a2b 0 0 pads (alphabet (a.toNat / 4) :: alphabet (a.toNat % 4 * 16 + n) :: rest) =
      (a2b 2 n 0 rest).map (fun more => a :: more) := by
  have ha := a.toNat_lt
  have hlow : (a.toNat % 4 * 16 + n) % 16 = n := by omega
  have hbyte : a.toNat / 4 * 4 + (a.toNat % 4 * 16 + n) / 16 = a.toNat := by omega
  rw [a2b_alphabet (by omega), a2b_alphabet (by omega), hlow, hbyte, UInt8.ofNat_toNat]
  rfl

theorem a2b_second (b : UInt8) {n : Nat} (hn : n < 4) (rest : Bytes) :
    a2b 2 (b.toNat / 16) 0 (alphabet (b.toNat % 16 * 4 + n) :: rest) =
      (a2b 3 n 0 rest).map (fun more => b :: more) := by
  have hb := b.toNat_lt
  have hlow : (b.toNat % 16 * 4 + n) % 4 = n := by omega
  have hbyte : b.toNat / 16 * 16 + (b.toNat % 16 * 4 + n) / 4 = b.toNat := by omega
  rw [a2b_alphabet (by omega), hlow, hbyte, UInt8.ofNat_toNat]
  rfl

theorem a2b_third (c : UInt8) (rest : Bytes) :
    a2b 3 (c.toNat / 64) 0 (alphabet (c.toNat % 64) :: rest) =
      (a2b 0 0 0 rest).map (fun more => c :: more) := by
  have hbyte : c.toNat / 64 * 64 + c.toNat % 64 = c.toNat := by omega
  rw [a2b_alphabet (by omega)]
  show Option.map (fun more => UInt8.ofNat (c.toNat / 64 * 64 + c.toNat % 64) :: more) _ = _
  rw [hbyte, UInt8.ofNat_toNat]

theorem a2b_pads (left : Nat) : a2b 2 left 0 [pad, pad] = some [] := rfl

theorem a2b_pad (left : Nat) : a2b 3 left 0 [pad] = some [] := rfl

/-- `urlsafe_b64decode(urlsafe_b64encode(data)) == data` -/
theorem urlsafeB64decode_encode (data : Bytes) :
    urlsafeB64decode (urlsafeB64encode data) = some data := by
  unfold urlsafeB64decode
  induction data using urlsafeB64encode.induct with
  | case1 => rfl
  | case2 a =>
      have hfirst := a2b_first a (show 0 < 16 by decide) 0 [pad, pad]
      rw [Nat.add_zero, a2b_pads] at hfirst
      exact hfirst
  | case3 a b =>
      have hb := b.toNat_lt
      have hsecond := a2b_second b (show 0 < 4 by decide) [pad]
      rw [Nat.add_zero, a2b_pad] at hsecond
      rw [urlsafeB64encode, a2b_first a (by omega), hsecond]
      rfl
  | case4 a b c rest ih =>
      have hb := b.toNat_lt
      have hc := c.toNat_lt
      rw [urlsafeB64encode, a2b_first a (by omega), a2b_second b (by omega), a2b_third, ih]
      rfl

theorem urlsafeB64encode_ne_nil {data : Bytes} (h : data ≠ []) : urlsafeB64encode data ≠ [] := by
  cases data using urlsafeB64encode.fun_cases with
  | case1 => exact absurd rfl h
  | case2 a => exact List.cons_ne_nil _ _
  | case3 a b => exact List.cons_ne_nil _ _
  | case4 a b c rest => exact List.cons_ne_nil _ _

theorem urlsafeB64encode_ascii (data : Bytes) :
    forall c, c ∈ urlsafeB64encode data -> c.toNat < 0x80 := by
  have hpad : pad.toNat < 0x80 := by decide
  induction data using urlsafeB64encode.induct with
  | case1 => exact fun c hc => absurd hc List.not_mem_nil
  | case2 a =>
      have ha := a.toNat_lt
      intro c hc
      simp only [urlsafeB64encode, List.mem_cons, List.not_mem_nil, or_false] at hc
      rcases hc with rfl | rfl | rfl | rfl
      · exact alphabet_ascii _ (by omega)
      · exact alphabet_ascii _ (by omega)
      · exact hpad
      · exact hpad
  | case3 a b =>
      have ha := a.toNat_lt
      have hb := b.toNat_lt
      intro c hc
      simp only [urlsafeB64encode, List.mem_cons, List.not_mem_nil, or_false] at hc
      rcases hc with rfl | rfl | rfl | rfl
      · exact alphabet_ascii _ (by omega)
      · exact alphabet_ascii _ (by omega)
      · exact alphabet_ascii _ (by omega)
      · exact hpad
  | case4 a b d rest ih =>
      have ha := a.toNat_lt
      have hb := b.toNat_lt
      have hd := d.toNat_lt
      intro c hc
      simp only [urlsafeB64encode, List.mem_cons] at hc
      rcases hc with rfl | rfl | rfl | rfl | hc
      · exact alphabet_ascii _ (by omega)
      · exact alphabet_ascii _ (by omega)
      · exact alphabet_ascii _ (by omega)
      · exact alphabet_ascii _ (by omega)
      · exact ih c hc

end Base64
end Python
end ConversationService
