import ConversationService.Python.Uuid

/-!
# The canonical text of a UUID

A text of five groups of small hexadecimal digits is what `str` makes of the UUID that it
is parsed to.
-/

namespace ConversationService
namespace Python

open UUID

/-!
# Small digits
-/

/-- A hexadecimal digit that is no capital. -/
def IsSmallDigit (c : CodePoint) : Prop :=
  lowerAscii c = c ∧ (hexValue c).isSome = true

theorem hexValue_lt {c : CodePoint} {d : Nat} (h : hexValue c = some d) : d < 16 := by
  unfold hexValue at h
  dsimp only at h
  split at h
  · cases h
    omega
  · split at h
    · cases h
      omega
    · split at h
      · cases h
        omega
      · cases h

theorem smallDigit_val {c : CodePoint} (h : IsSmallDigit c) {d : Nat}
    (hd : hexValue c = some d) : c.val = if d < 10 then 0x30 + d else 0x57 + d := by
  have hlower := h.left
  unfold hexValue at hd
  dsimp only at hd
  split at hd
  · cases hd
    rw [if_pos (by omega)]
    omega
  · split at hd
    · cases hd
      rw [if_neg (by omega)]
      omega
    · split at hd
      · -- a capital is not its own lower case
        unfold lowerAscii at hlower
        rw [if_pos (by omega)] at hlower
        have hval := congrArg Fin.val hlower
        simp only [Fin.ofNat] at hval
        omega
      · cases hd

theorem smallDigit_injective {c c' : CodePoint} (h : IsSmallDigit c) (h' : IsSmallDigit c')
    (heq : hexValue c = hexValue c') : c = c' := by
  rcases Option.isSome_iff_exists.mp h.right with ⟨d, hd⟩
  apply Fin.ext
  rw [smallDigit_val h hd, smallDigit_val h' (heq.symm.trans hd)]

theorem digitsValue_lt {s : Text} (h : forall c, c ∈ s -> IsSmallDigit c) :
    digitsValue s < 16 ^ s.length := by
  induction s with
  | nil => exact Nat.one_pos
  | cons c rest ih =>
      have hrest := ih (fun c' hc' => h c' (List.mem_cons_of_mem _ hc'))
      rcases Option.isSome_iff_exists.mp (h c List.mem_cons_self).right with ⟨d, hd⟩
      have hlt := hexValue_lt hd
      rw [digitsValue, hd, Option.getD_some, List.length_cons, Nat.pow_succ]
      omega

theorem digitsValue_injective {s t : Text} (hs : forall c, c ∈ s -> IsSmallDigit c)
    (ht : forall c, c ∈ t -> IsSmallDigit c) (hlength : s.length = t.length)
    (h : digitsValue s = digitsValue t) : s = t := by
  induction s generalizing t with
  | nil => exact (List.length_eq_zero_iff.mp hlength.symm).symm
  | cons c rest ih =>
      cases t with
      | nil => cases hlength
      | cons c' rest' =>
          have hc := hs c List.mem_cons_self
          have hc' := ht c' List.mem_cons_self
          rcases Option.isSome_iff_exists.mp hc.right with ⟨d, hd⟩
          rcases Option.isSome_iff_exists.mp hc'.right with ⟨d', hd'⟩
          have hlt := hexValue_lt hd
          have hlt' := hexValue_lt hd'
          rw [digitsValue, digitsValue, hd, hd', Option.getD_some, Option.getD_some] at h
          have hdigit : d = d' := by omega
          have hvalue : digitsValue rest = digitsValue rest' := by omega
          have hhead : c = c' := smallDigit_injective hc hc' (by rw [hd, hd', hdigit])
          have htail : rest = rest' :=
            ih (fun x hx => hs x (List.mem_cons_of_mem _ hx))
              (fun x hx => ht x (List.mem_cons_of_mem _ hx)) (Nat.succ.inj hlength) hvalue
          rw [hhead, htail]

theorem smallDigit_digitChar : forall d, d < 16 -> IsSmallDigit (digitChar d) := by
  unfold IsSmallDigit
  decide

theorem smallDigit_hex (u : UUID) : forall c, c ∈ u.hex -> IsSmallDigit c := by
  have hdigits : forall fuel n, forall c, c ∈ digitsRev 16 fuel n -> IsSmallDigit c := by
    intro fuel
    induction fuel with
    | zero =>
        intro n c hc
        simp [digitsRev] at hc
    | succ fuel ih =>
        intro n c hc
        rcases List.mem_cons.mp hc with rfl | hrest
        · exact smallDigit_digitChar _ (Nat.mod_lt n (by decide))
        · split at hrest
          · simp at hrest
          · exact ih _ c hrest
  intro c hc
  rcases List.mem_append.mp hc with hzero | hdigit
  · rw [List.eq_of_mem_replicate hzero]
    exact smallDigit_digitChar 0 (by decide)
  · exact hdigits 32 u.int c (List.mem_reverse.mp hdigit)

theorem exists_hex {h : Text} (hlength : h.length = 32)
    (hsmall : forall c, c ∈ h -> IsSmallDigit c) : exists u : UUID, u.hex = h := by
  have hreverse : forall c, c ∈ h.reverse -> IsSmallDigit c :=
    fun c hc => hsmall c (List.mem_reverse.mp hc)
  have hlt := digitsValue_lt hreverse
  rw [List.length_reverse, hlength] at hlt
  refine ⟨UUID.ofInt (digitsValue h.reverse), ?_⟩
  apply List.reverse_inj.mp
  apply digitsValue_injective
  · intro c hc
    exact smallDigit_hex _ c (List.mem_reverse.mp hc)
  · exact hreverse
  · rw [List.length_reverse, List.length_reverse, length_hex, hlength]
  · rw [digitsValue_hex, int_ofInt]
    have hpow : (16 : Nat) ^ 32 = 2 ^ 128 := by norm_num
    omega

/-!
# Groups
-/

theorem exists_toText {a b c d e : Text} (ha : a.length = 8) (hb : b.length = 4)
    (hc : c.length = 4) (hd : d.length = 4) (he : e.length = 12)
    (hsmall : forall x, x ∈ a ++ (b ++ (c ++ (d ++ e))) -> IsSmallDigit x) :
    exists u : UUID, u.toText =
      a ++ (text "-" ++ (b ++ (text "-" ++ (c ++ (text "-" ++ (d ++ (text "-" ++ e))))))) := by
  have hlength : (a ++ (b ++ (c ++ (d ++ e)))).length = 32 := by
    simp only [List.length_append, ha, hb, hc, hd, he]
  rcases exists_hex hlength hsmall with ⟨u, hu⟩
  have h8 : u.hex.drop 8 = b ++ (c ++ (d ++ e)) := by
    rw [hu]
    exact List.drop_left' ha
  have h12 : u.hex.drop 12 = c ++ (d ++ e) := by
    rw [show (12 : Nat) = 8 + 4 from rfl, ← List.drop_drop, h8]
    exact List.drop_left' hb
  have h16 : u.hex.drop 16 = d ++ e := by
    rw [show (16 : Nat) = 12 + 4 from rfl, ← List.drop_drop, h12]
    exact List.drop_left' hc
  have h20 : u.hex.drop 20 = e := by
    rw [show (20 : Nat) = 16 + 4 from rfl, ← List.drop_drop, h16]
    exact List.drop_left' hd
  have ha' : u.hex.take 8 = a := by
    rw [hu]
    exact List.take_left' ha
  have hb' : (u.hex.drop 8).take 4 = b := by
    rw [h8]
    exact List.take_left' hb
  have hc' : (u.hex.drop 12).take 4 = c := by
    rw [h12]
    exact List.take_left' hc
  have hd' : (u.hex.drop 16).take 4 = d := by
    rw [h16]
    exact List.take_left' hd
  refine ⟨u, ?_⟩
  rw [toText_eq, ha', hb', hc', hd', h20]

theorem mem_toText {u : UUID} {c : CodePoint} (h : c ∈ u.toText) :
    IsSmallDigit c ∨ c = 0x2D := by
  by_cases hdash : c = 0x2D
  · exact Or.inr hdash
  · left
    apply smallDigit_hex u c
    rw [← filter_dash_toText u]
    exact List.mem_filter.mpr ⟨h, decide_eq_true hdash⟩

end Python
end ConversationService
