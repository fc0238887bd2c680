import Mathlib.Data.Set.Function
import ConversationService.Library.SeparatedMaps
import ConversationService.Model.ArtifactService

/-!
# Ids of artifacts

What an artifact is registered by is known from its id: the owner, the type and the canonical
text, and for an animation what it is rendered with. This rests on the hashes of two
registrations being different where what is hashed is different.
-/

namespace ConversationService

open Python Programs

/-!
# Encoded texts
-/

namespace Fingerprint

section Encoding

/-- The number of the first character, and the bytes behind it. -/
def readUtf8 : Bytes -> Option (Nat × Bytes)
  | [] => none
  | a :: rest =>
      if a.toNat < 0x80 then some (a.toNat, rest)
      else if a.toNat < 0xE0 then
        match rest with
        | b :: rest => some ((a.toNat - 0xC0) * 64 + (b.toNat - 0x80), rest)
        | _ => none
      else if a.toNat < 0xF0 then
        match rest with
        | b :: c :: rest =>
            some (((a.toNat - 0xE0) * 64 + (b.toNat - 0x80)) * 64 + (c.toNat - 0x80), rest)
        | _ => none
      else
        match rest with
        | b :: c :: d :: rest =>
            some ((((a.toNat - 0xF0) * 64 + (b.toNat - 0x80)) * 64 + (c.toNat - 0x80)) * 64 +
              (d.toNat - 0x80), rest)
        | _ => none

theorem toNat_byte {n : Nat} (h : n < 0x100) : (UInt8.ofNat n).toNat = n := by
  rw [UInt8.toNat_ofNat']
  exact Nat.mod_eq_of_lt h

theorem readUtf8_utf8Char (c : CodePoint) (rest : Bytes) :
    readUtf8 (utf8Char c ++ rest) = some (c.val, rest) := by
  have hc : c.val < 0x110000 := c.isLt
  unfold utf8Char
  dsimp only
  split
  · rename_i hone
    have ha := toNat_byte (n := c.val) (by omega)
    rw [List.singleton_append, readUtf8.eq_def]
    dsimp only
    rw [ha, if_pos hone]
  split
  · have ha := toNat_byte (n := 0xC0 + c.val / 64) (by omega)
    have hb := toNat_byte (n := 0x80 + c.val % 64) (by omega)
    show readUtf8 (_ :: _ :: rest) = _
    rw [readUtf8.eq_def]
    dsimp only
    rw [ha, hb, if_neg (by omega), if_pos (by omega)]
    exact congrArg (fun n => some (n, rest)) (by omega)
  split
  · have ha := toNat_byte (n := 0xE0 + c.val / 4096) (by omega)
    have hb := toNat_byte (n := 0x80 + c.val / 64 % 64) (by omega)
    have hd := toNat_byte (n := 0x80 + c.val % 64) (by omega)
    show readUtf8 (_ :: _ :: _ :: rest) = _
    rw [readUtf8.eq_def]
    dsimp only
    rw [ha, hb, hd, if_neg (by omega), if_neg (by omega), if_pos (by omega)]
    exact congrArg (fun n => some (n, rest)) (by omega)
  · have ha := toNat_byte (n := 0xF0 + c.val / 262144) (by omega)
    have hb := toNat_byte (n := 0x80 + c.val / 4096 % 64) (by omega)
    have hd := toNat_byte (n := 0x80 + c.val / 64 % 64) (by omega)
    have he := toNat_byte (n := 0x80 + c.val % 64) (by omega)
    show readUtf8 (_ :: _ :: _ :: _ :: rest) = _
    rw [readUtf8.eq_def]
    dsimp only
    rw [ha, hb, hd, he, if_neg (by omega), if_neg (by omega), if_neg (by omega)]
    exact congrArg (fun n => some (n, rest)) (by omega)

theorem utf8Char_ne_nil (c : CodePoint) : utf8Char c ≠ [] := by
  intro hnil
  have hread := readUtf8_utf8Char c []
  rw [hnil] at hread
  cases hread

theorem utf8_injective : Function.Injective (fun s : Text => s.flatMap utf8Char) := by
  intro s t heq
  dsimp only at heq
  induction s generalizing t with
  | nil =>
      cases t with
      | nil => rfl
      | cons d t =>
          rw [List.flatMap_cons] at heq
          exact absurd (List.append_eq_nil_iff.mp heq.symm).left (utf8Char_ne_nil d)
  | cons c s ih =>
      cases t with
      | nil =>
          rw [List.flatMap_cons] at heq
          exact absurd (List.append_eq_nil_iff.mp heq).left (utf8Char_ne_nil c)
      | cons d t =>
          have hread := readUtf8_utf8Char c (s.flatMap utf8Char)
          rw [List.flatMap_cons, List.flatMap_cons] at heq
          rw [heq, readUtf8_utf8Char] at hread
          rcases Prod.mk.inj (Option.some.inj hread) with ⟨hval, hrest⟩
          rw [Fin.ext hval, ih hrest.symm]

theorem utf8Encode_unique {s t : Text} {data : Bytes} (hs : utf8Encode s = some data)
    (ht : utf8Encode t = some data) : s = t := by
  unfold utf8Encode at hs ht
  split at hs
  · cases hs
  · split at ht
    · cases ht
    · exact utf8_injective ((Option.some.inj hs).trans (Option.some.inj ht).symm)

end Encoding

/-!
# Payloads
-/

section Payloads

/-- Up to its first separator a text is known. -/
theorem cut_unique {c : CodePoint} {a a' b b' : Text} (ha : c ∉ a) (ha' : c ∉ a')
    (heq : a ++ c :: b = a' ++ c :: b') : a = a' ∧ b = b' := by
  have hword : forall {s : Text}, c ∉ s -> forall d, d ∈ s -> (d == c) = false := by
    intro s hs d hd
    rw [beq_eq_false_iff_ne]
    exact fun h => hs (h ▸ hd)
  have hcount := SeparatedMaps.countP_eq_zero_of_word (hword ha)
  have hcount' := SeparatedMaps.countP_eq_zero_of_word (hword ha')
  have hsplit := @SeparatedMaps.split_unique _ (fun d => d == c) a a' b b' c c
    (beq_self_eq_true c) (beq_self_eq_true c) (hcount.trans hcount'.symm) heq
  exact ⟨hsplit.left, hsplit.right.right⟩

/-- What is hashed of an artifact. -/
def payload (type : ArtifactType) (canonicalText rendererVersion quality : Text) : Text :=
  let configuration := if type = .mermaid then ([], []) else (rendererVersion, quality)
  join [0] [text "fp1", type.value, configuration.1, configuration.2, canonicalText]

theorem computeFingerprint_eq (type : ArtifactType) (canonicalText rendererVersion quality : Text) :
    computeFingerprint type canonicalText rendererVersion quality =
      (utf8Encode (payload type canonicalText rendererVersion quality)).map sha256Hex := rfl

theorem nul_not_mem_value (type : ArtifactType) : (0 : CodePoint) ∉ type.value := by
  cases type with
  | mermaid => decide
  | manim => decide

theorem value_injective : Function.Injective ArtifactType.value := by
  intro type type' heq
  cases type with
  | mermaid =>
      cases type' with
      | mermaid => rfl
      | manim => exact absurd heq (by decide)
  | manim =>
      cases type' with
      | mermaid => exact absurd heq (by decide)
      | manim => rfl

/-- What a payload says of how the artifact is rendered. -/
def configuration (type : ArtifactType) (rendererVersion quality : Text) : Text × Text :=
  if type = .mermaid then ([], []) else (rendererVersion, quality)

theorem payload_eq (type : ArtifactType) (canonicalText rendererVersion quality : Text) :
    payload type canonicalText rendererVersion quality =
      text "fp1" ++ 0 :: (type.value ++ 0 :: ((configuration type rendererVersion quality).1 ++
        0 :: ((configuration type rendererVersion quality).2 ++ 0 :: canonicalText))) := by
  unfold payload configuration
  simp [join]

theorem nul_not_mem_configuration (type : ArtifactType) {rendererVersion quality : Text}
    (hversion : (0 : CodePoint) ∉ rendererVersion) (hquality : (0 : CodePoint) ∉ quality) :
    (0 : CodePoint) ∉ (configuration type rendererVersion quality).1 ∧
      (0 : CodePoint) ∉ (configuration type rendererVersion quality).2 := by
  unfold configuration
  split
  · exact ⟨List.not_mem_nil, List.not_mem_nil⟩
  · exact ⟨hversion, hquality⟩

theorem payload_unique {type type' : ArtifactType} {canonical canonical' version version' : Text}
    {quality quality' : Text} (hversion : (0 : CodePoint) ∉ version)
    (hversion' : (0 : CodePoint) ∉ version') (hquality : (0 : CodePoint) ∉ quality)
    (hquality' : (0 : CodePoint) ∉ quality')
    (heq : payload type canonical version quality = payload type' canonical' version' quality') :
    type = type' ∧ canonical = canonical' ∧
      (type = .manim -> version = version' ∧ quality = quality') := by
  have hfree := nul_not_mem_configuration type hversion hquality
  have hfree' := nul_not_mem_configuration type' hversion' hquality'
  rw [payload_eq, payload_eq] at heq
  have htail := (List.cons.inj (List.append_cancel_left heq)).right
  rcases cut_unique (nul_not_mem_value type) (nul_not_mem_value type') htail with ⟨htype, htail⟩
  rcases cut_unique hfree.left hfree'.left htail with ⟨hfirst, htail⟩
  rcases cut_unique hfree.right hfree'.right htail with ⟨hsecond, hcanonical⟩
  have hsame := value_injective htype
  refine ⟨hsame, hcanonical, ?_⟩
  rintro rfl
  rw [← hsame] at hfirst hsecond
  exact ⟨hfirst, hsecond⟩

theorem payload_congr {type : ArtifactType} {canonical version version' quality quality' : Text}
    (h : type = .manim -> version = version' ∧ quality = quality') :
    payload type canonical version quality = payload type canonical version' quality' := by
  cases type with
  | mermaid => rfl
  | manim =>
      rcases h rfl with ⟨rfl, rfl⟩
      rfl

def artifactName (owner : UUID) (type : ArtifactType) (fingerprint : Text) : Bytes :=
  (owner.toText ++ text ":" ++ type.value ++ text ":" ++ fingerprint).flatMap utf8Char

theorem artifactName_unique {owner owner' : UUID} {type type' : ArtifactType}
    {fingerprint fingerprint' : Text}
    (heq : artifactName owner type fingerprint = artifactName owner' type' fingerprint') :
    owner = owner' ∧ type = type' ∧ fingerprint = fingerprint' := by
  have htext := utf8_injective heq
  have hcolon : text ":" = [0x3A] := by decide
  have hfree : forall u : UUID, (0x3A : CodePoint) ∉ u.toText :=
    fun u => UUID.not_mem_toText (by decide) (by decide)
  have hvalue : forall type : ArtifactType, (0x3A : CodePoint) ∉ type.value := by
    intro type
    cases type with
    | mermaid => decide
    | manim => decide
  simp only [hcolon, List.append_assoc, List.singleton_append] at htext
  rcases cut_unique (hfree owner) (hfree owner') htext with ⟨howner, htail⟩
  rcases cut_unique (hvalue type) (hvalue type') htail with ⟨htype, hprint⟩
  exact ⟨UUID.toText_injective howner, value_injective htype, hprint⟩

/-- An id tells what it was made of, where no two hashes fall together. -/
theorem artifactIdFor_eq_iff {owner owner' : UUID} {type type' : ArtifactType}
    {canonical canonical' version version' quality quality' fingerprint fingerprint' : Text}
    (hprint : computeFingerprint type canonical version quality = some fingerprint)
    (hprint' : computeFingerprint type' canonical' version' quality' = some fingerprint')
    (hversion : (0 : CodePoint) ∉ version) (hversion' : (0 : CodePoint) ∉ version')
    (hquality : (0 : CodePoint) ∉ quality) (hquality' : (0 : CodePoint) ∉ quality')
    (hsha : Set.InjOn sha256Hex
      {data | utf8Encode (payload type canonical version quality) = some data ∨
        utf8Encode (payload type' canonical' version' quality') = some data})
    (huuid : Set.InjOn (uuid5 namespaceUuid)
      {artifactName owner type fingerprint, artifactName owner' type' fingerprint'}) :
    artifactIdFor owner type fingerprint = artifactIdFor owner' type' fingerprint' <->
      owner = owner' ∧ type = type' ∧ canonical = canonical' ∧
        (type = .manim -> version = version' ∧ quality = quality') := by
  rw [computeFingerprint_eq, Option.map_eq_some_iff] at hprint hprint'
  rcases hprint with ⟨data, hdata, rfl⟩
  rcases hprint' with ⟨data', hdata', rfl⟩
  constructor
  · intro heq
    have hname := huuid (Or.inl rfl) (Or.inr rfl) heq
    rcases artifactName_unique hname with ⟨howner, _, hhash⟩
    cases hsha (Or.inl hdata) (Or.inr hdata') hhash
    have hpayload := utf8Encode_unique hdata hdata'
    exact ⟨howner, payload_unique hversion hversion' hquality hquality' hpayload⟩
  · rintro ⟨rfl, rfl, rfl, hrender⟩
    rw [payload_congr hrender, hdata'] at hdata
    rw [Option.some.inj hdata]

end Payloads

end Fingerprint

end ConversationService
