import Mathlib.Order.Lattice
import Mathlib.Data.List.Basic
import Mathlib.Data.List.Induction

/-!
# Keyset scans

A client reads a sorted list page by page. A page is a window of at most `limit` rows
from which the rows that are not shown have been taken out, and a page that still has
`limit` entries has a cursor: the key of its last entry. The next page is read from the
rows below the cursor, and a page without a cursor is the last one. This module says
when such a scan shows everything.
-/

namespace ConversationService
namespace KeysetScan

variable {α β κ : Type}

/-- How rows are ordered and which of them are shown. -/
structure Listing (α β κ : Type) where
  key : α -> κ
  /-- the entry of a row that is shown -/
  entry : α -> Option β
  entryKey : β -> κ
  keeps : forall a b, entry a = some b -> entryKey b = key a

namespace Listing

section Page

variable (L : Listing α β κ) (limit : Nat)

/-- The first page of the rows. -/
def page (rows : List α) : List β :=
  (rows.take limit).filterMap L.entry

variable {L limit}

theorem page_append (rows : List α) :
    L.page limit rows ++ (rows.drop limit).filterMap L.entry = rows.filterMap L.entry := by
  unfold page
  rw [← List.filterMap_append, List.take_append_drop]

theorem window_of_full {rows : List α} {b : β} (hfull : (L.page limit rows).length = limit)
    (hb : (L.page limit rows).getLast? = some b) :
    exists before a, rows.take limit = before ++ [a] ∧ L.key a = L.entryKey b := by
  rcases List.eq_nil_or_concat (rows.take limit) with hnil | ⟨before, a, hwindow⟩
  · unfold page at hb
    rw [hnil] at hb
    cases hb
  · rw [List.concat_eq_append] at hwindow
    refine ⟨before, a, hwindow, ?_⟩
    unfold page at hb hfull
    rw [hwindow, List.filterMap_append] at hb hfull
    cases hentry : L.entry a with
    | none =>
        have hshort : (before.filterMap L.entry).length ≤ before.length :=
          List.length_filterMap_le _ _
        have hlimit : (before ++ [a]).length ≤ limit := hwindow ▸ List.length_take_le _ _
        rw [List.filterMap_cons_none hentry] at hfull
        simp at hfull hlimit
        omega
    | some b' =>
        rw [List.filterMap_cons_some hentry] at hb
        have hsame : b' = b := by simpa using hb
        rw [← hsame]
        exact (L.keeps a b' hentry).symm

theorem entries_of_full {rows : List α} (hfull : (L.page limit rows).length = limit)
    {a : α} (ha : a ∈ rows.take limit) : exists b, L.entry a = some b := by
  have hlength : ((rows.take limit).filterMap L.entry).length = (rows.take limit).length := by
    have hshort : ((rows.take limit).filterMap L.entry).length ≤ (rows.take limit).length :=
      List.length_filterMap_le _ _
    have hlimit : (rows.take limit).length ≤ limit := List.length_take_le _ _
    unfold page at hfull
    omega
  rw [List.filterMap_length_eq_length] at hlength
  exact Option.isSome_iff_exists.mp (hlength a ha)

/--
No row is shown in a later block of `limit` rows than one that is not shown. The blocks
are the windows of the pages, until one is not full.
-/
def InBlocks (L : Listing α β κ) (limit : Nat) (rows : List α) : Prop :=
  forall p q a a', rows[p]? = some a -> rows[q]? = some a' -> L.entry a = none ->
    L.entry a' ≠ none -> q / limit ≤ p / limit

theorem inBlocks_of_short {rows : List α} (hlimit : 0 < limit)
    (hshort : (L.page limit rows).length ≠ limit) :
    L.InBlocks limit rows <-> forall a, a ∈ rows.drop limit -> L.entry a = none := by
  constructor
  · intro h a ha
    by_contra hshown
    rcases List.mem_iff_getElem?.mp ha with ⟨q, hq⟩
    rw [List.getElem?_drop] at hq
    have hlong : limit < rows.length := by
      have hlt := (List.getElem?_eq_some_iff.mp hq).choose
      omega
    -- the window is full of rows, so one of them is not shown
    have hmissing : exists a', a' ∈ rows.take limit ∧ L.entry a' = none := by
      by_contra hall
      apply hshort
      unfold page
      have hlength : ((rows.take limit).filterMap L.entry).length = (rows.take limit).length := by
        apply List.filterMap_length_eq_length.mpr
        intro a' ha'
        cases hentry : L.entry a' with
        | none => exact absurd ⟨a', ha', hentry⟩ hall
        | some b => rfl
      rw [hlength, List.length_take]
      omega
    rcases hmissing with ⟨a', ha', hnone⟩
    rcases List.mem_take_iff_getElem.mp ha' with ⟨p, hp, hget⟩
    have hp' : rows[p]? = some a' := by
      rw [← hget]
      simp
    have hblock : p / limit = 0 := Nat.div_eq_of_lt (Nat.lt_of_lt_of_le hp (Nat.min_le_left _ _))
    have hle := h p (limit + q) a' a hp' hq hnone hshown
    rw [hblock, Nat.add_div_left _ hlimit] at hle
    exact Nat.not_succ_le_zero _ hle
  · intro h p q a a' hp hq hnone hshown
    have hq' : q < limit := by
      by_contra hge
      apply hshown
      apply h a'
      apply List.mem_iff_getElem?.mpr
      refine ⟨q - limit, ?_⟩
      rw [List.getElem?_drop, Nat.add_sub_cancel' (Nat.not_lt.mp hge)]
      exact hq
    rw [Nat.div_eq_of_lt hq']
    exact Nat.zero_le _

theorem inBlocks_of_full {rows : List α} (hlimit : 0 < limit)
    (hfull : (L.page limit rows).length = limit) :
    L.InBlocks limit rows <-> L.InBlocks limit (rows.drop limit) := by
  constructor
  · intro h p q a a' hp hq hnone hshown
    rw [List.getElem?_drop] at hp hq
    have hle := h _ _ a a' hp hq hnone hshown
    rw [Nat.add_div_left _ hlimit, Nat.add_div_left _ hlimit] at hle
    omega
  · intro h p q a a' hp hq hnone hshown
    have hp' : limit ≤ p := by
      by_contra hlt
      have hmem : a ∈ rows.take limit := by
        apply List.mem_iff_getElem?.mpr
        refine ⟨p, ?_⟩
        rw [List.getElem?_take_of_lt (Nat.not_le.mp hlt)]
        exact hp
      rcases entries_of_full hfull hmem with ⟨b, hb⟩
      rw [hnone] at hb
      cases hb
    rcases Nat.lt_or_ge q limit with hq' | hq'
    · rw [Nat.div_eq_of_lt hq']
      exact Nat.zero_le _
    · have hle := h (p - limit) (q - limit) a a'
        (by rw [List.getElem?_drop, Nat.add_sub_cancel' hp']; exact hp)
        (by rw [List.getElem?_drop, Nat.add_sub_cancel' hq']; exact hq) hnone hshown
      rw [← Nat.sub_add_cancel hp', ← Nat.sub_add_cancel hq', Nat.add_div_right _ hlimit,
        Nat.add_div_right _ hlimit]
      omega

/-- The key at which the next page continues. -/
def nextKey (L : Listing α β κ) (limit : Nat) (rows : List α) : Option κ :=
  if (L.page limit rows).length = limit then (L.page limit rows).getLast?.map L.entryKey
  else none

end Page

section Scan

variable [LinearOrder κ] (L : Listing α β κ) (limit : Nat)

/-- The rows below a cursor. -/
def below (k : κ) (rows : List α) : List α :=
  rows.filter (fun a => L.key a < k)

/-- The rows with the newest first; some of them may have the same key. -/
def Descending (rows : List α) : Prop :=
  rows.Pairwise (fun a b => L.key b ≤ L.key a)

/-- The entries of a scan of the rows, from the first page to the last. -/
inductive Scan : List α -> List β -> Prop where
  | last {rows : List α} : (L.page limit rows).length ≠ limit ->
      Scan rows (L.page limit rows)
  | more {rows : List α} {items : List β} (b : β) :
      (L.page limit rows).length = limit -> (L.page limit rows).getLast? = some b ->
      Scan (L.below (L.entryKey b) rows) items -> Scan rows (L.page limit rows ++ items)

/--
Behind a full window no row is shown that has the key of its last row, and behind the
first window that is not full no row is shown at all.
-/
inductive Covers : List α -> Prop where
  | last {rows : List α} : (L.page limit rows).length ≠ limit ->
      (forall a, a ∈ rows.drop limit -> L.entry a = none) -> Covers rows
  | more {rows : List α} (b : β) :
      (L.page limit rows).length = limit -> (L.page limit rows).getLast? = some b ->
      (forall a, a ∈ rows.drop limit -> L.key a = L.entryKey b -> L.entry a = none) ->
      Covers (L.below (L.entryKey b) rows) -> Covers rows

variable {L limit}

/-!
# One page
-/

theorem descending_below {rows : List α} (h : L.Descending rows) (k : κ) :
    L.Descending (L.below k rows) :=
  h.sublist List.filter_sublist

theorem below_of_full {rows : List α} {b : β} (hdesc : L.Descending rows)
    (hfull : (L.page limit rows).length = limit)
    (hb : (L.page limit rows).getLast? = some b) :
    L.below (L.entryKey b) rows = L.below (L.entryKey b) (rows.drop limit) ∧
      forall a, a ∈ rows.drop limit -> L.key a ≤ L.entryKey b := by
  rcases window_of_full hfull hb with ⟨before, last, hwindow, hkey⟩
  have hrows : rows = (before ++ [last]) ++ rows.drop limit := by
    rw [← hwindow, List.take_append_drop]
  unfold Descending at hdesc
  rw [hrows, List.pairwise_append] at hdesc
  rcases hdesc with ⟨hfront, _, hcross⟩
  rw [← hkey]
  refine ⟨?_, fun a ha => hcross last (by simp) a ha⟩
  have hnone : (before ++ [last]).filter (fun a => L.key a < L.key last) = [] := by
    rw [List.filter_eq_nil_iff]
    intro a ha
    rw [decide_eq_true_eq, not_lt]
    rcases List.mem_append.mp ha with hbefore | hlast
    · exact (List.pairwise_append.mp hfront).right.right a hbefore last (by simp)
    · rw [List.mem_singleton.mp hlast]
  unfold below
  conv_lhs => rw [hrows]
  rw [List.filter_append, hnone, List.nil_append]

/-- The cursor leaves rows out exactly when one of them has its key. -/
theorem below_complete_iff {rows : List α} {k : κ} (hle : forall a, a ∈ rows -> L.key a ≤ k) :
    (L.below k rows).filterMap L.entry = rows.filterMap L.entry <->
      forall a, a ∈ rows -> L.key a = k -> L.entry a = none := by
  constructor
  · intro heq a ha hkey
    cases hentry : L.entry a with
    | none => rfl
    | some b =>
        exfalso
        have hmem : b ∈ rows.filterMap L.entry := List.mem_filterMap.mpr ⟨a, ha, hentry⟩
        rw [← heq] at hmem
        rcases List.mem_filterMap.mp hmem with ⟨a', ha', hentry'⟩
        have hlt : L.key a' < k := by simpa using (List.mem_filter.mp ha').right
        rw [← L.keeps a' b hentry', L.keeps a b hentry, hkey] at hlt
        exact lt_irrefl k hlt
  · intro hties
    unfold below
    rw [List.filterMap_filter]
    apply List.filterMap_congr
    intro a ha
    split
    · rfl
    · rename_i hnot
      have hkey : L.key a = k :=
        le_antisymm (hle a ha) (not_lt.mp (by simpa using hnot))
      exact (hties a ha hkey).symm

/-!
# Whole scans
-/

theorem below_length_lt {rows : List α} {b : β}
    (hfull : (L.page limit rows).length = limit)
    (hb : (L.page limit rows).getLast? = some b) :
    (L.below (L.entryKey b) rows).length < rows.length := by
  rcases window_of_full hfull hb with ⟨before, last, hwindow, hkey⟩
  have hlast : last ∈ rows.take limit := by
    rw [hwindow]
    simp
  apply List.length_filter_lt_length_iff_exists.mpr
  refine ⟨last, List.mem_of_mem_take hlast, ?_⟩
  rw [hkey]
  simp

theorem scan_sublist {rows : List α} {items : List β} (hdesc : L.Descending rows)
    (h : L.Scan limit rows items) : List.Sublist items (rows.filterMap L.entry) := by
  induction h with
  | last hpage => exact (List.take_sublist _ _).filterMap _
  | @more rows items b hfull hb hscan ih =>
      rw [← page_append rows]
      have hrest := ih (descending_below hdesc _)
      rw [(below_of_full hdesc hfull hb).left] at hrest
      exact (List.Sublist.refl _).append (hrest.trans (List.filter_sublist.filterMap _))

theorem covers_last_iff {rows : List α} (hpage : (L.page limit rows).length ≠ limit) :
    L.Covers limit rows <-> forall a, a ∈ rows.drop limit -> L.entry a = none := by
  constructor
  · intro h
    cases h with
    | last _ hrest => exact hrest
    | more b hfull _ _ _ => exact absurd hfull hpage
  · exact fun h => .last hpage h

theorem covers_more_iff {rows : List α} {b : β} (hfull : (L.page limit rows).length = limit)
    (hb : (L.page limit rows).getLast? = some b) :
    L.Covers limit rows <->
      (forall a, a ∈ rows.drop limit -> L.key a = L.entryKey b -> L.entry a = none) ∧
      L.Covers limit (L.below (L.entryKey b) rows) := by
  constructor
  · intro h
    cases h with
    | last hpage _ => exact absurd hfull hpage
    | more b' _ hb' hties hrest =>
        rw [hb] at hb'
        cases hb'
        exact ⟨hties, hrest⟩
  · exact fun h => .more b hfull hb h.left h.right

/-- A scan shows all rows that are to be shown exactly when its windows cover them. -/
theorem scan_complete_iff {rows : List α} {items : List β} (hdesc : L.Descending rows)
    (h : L.Scan limit rows items) :
    items = rows.filterMap L.entry <-> L.Covers limit rows := by
  induction h with
  | @last rows hpage =>
      rw [covers_last_iff hpage, ← page_append rows, List.self_eq_append_right,
        List.filterMap_eq_nil_iff]
  | @more rows items b hfull hb hscan ih =>
      rcases below_of_full hdesc hfull hb with ⟨hbelow, hle⟩
      have hsub := scan_sublist (descending_below hdesc _) hscan
      have hinduct := ih (descending_below hdesc _)
      rw [covers_more_iff hfull hb, ← page_append rows, List.append_cancel_left_eq,
        ← below_complete_iff hle, ← hinduct, hbelow]
      rw [hbelow] at hsub
      have hrest : List.Sublist ((L.below (L.entryKey b) (rows.drop limit)).filterMap L.entry)
          ((rows.drop limit).filterMap L.entry) := List.filter_sublist.filterMap _
      constructor
      · intro heq
        have hlength : (rows.drop limit).filterMap L.entry =
            (L.below (L.entryKey b) (rows.drop limit)).filterMap L.entry := by
          apply (List.Sublist.antisymm _ hrest)
          rw [← heq]
          exact hsub
        exact ⟨hlength.symm, heq.trans hlength⟩
      · intro hboth
        exact hboth.right.trans hboth.left

/-!
# Rows with different keys
-/

theorem below_of_full_strict {rows : List α} {b : β}
    (hstrict : rows.Pairwise (fun a a' => L.key a' < L.key a))
    (hfull : (L.page limit rows).length = limit)
    (hb : (L.page limit rows).getLast? = some b) :
    L.below (L.entryKey b) rows = rows.drop limit := by
  have hdesc : L.Descending rows := hstrict.imp (fun h => le_of_lt h)
  rw [(below_of_full hdesc hfull hb).left]
  rcases window_of_full hfull hb with ⟨before, last, hwindow, hkey⟩
  have hrows : rows = (before ++ [last]) ++ rows.drop limit := by
    rw [← hwindow, List.take_append_drop]
  rw [hrows, List.pairwise_append] at hstrict
  apply List.filter_eq_self.mpr
  intro a ha
  rw [← hkey, decide_eq_true_eq]
  exact hstrict.right.right last (by simp) a ha

theorem covers_iff_inBlocks {rows : List α} (hlimit : 0 < limit)
    (hstrict : rows.Pairwise (fun a a' => L.key a' < L.key a)) :
    L.Covers limit rows <-> L.InBlocks limit rows := by
  induction hn : rows.length using Nat.strongRecOn generalizing rows with
  | _ n ih =>
      by_cases hfull : (L.page limit rows).length = limit
      · cases hb : (L.page limit rows).getLast? with
        | none =>
            rw [List.getLast?_eq_none_iff.mp hb] at hfull
            exact absurd hfull (Nat.ne_of_lt hlimit)
        | some b =>
            have hbelow := below_of_full_strict hstrict hfull hb
            have hlt := below_length_lt hfull hb
            rw [hbelow] at hlt
            rw [covers_more_iff hfull hb, hbelow,
              ih _ (hn ▸ hlt) (hstrict.sublist (List.drop_sublist _ _)) rfl,
              inBlocks_of_full hlimit hfull]
            refine ⟨fun h => h.right, fun h => ⟨?_, h⟩⟩
            -- no row behind the window has the key of its last one
            intro a ha hkey
            rw [← hbelow] at ha
            have hltKey : L.key a < L.entryKey b := by
              simpa using (List.mem_filter.mp ha).right
            exact absurd hkey (ne_of_lt hltKey)
      · rw [covers_last_iff hfull, inBlocks_of_short hlimit hfull]

/-!
# Clients
-/

theorem below_below {k k' : κ} (h : k' ≤ k) (rows : List α) :
    L.below k' (L.below k rows) = L.below k' rows := by
  unfold below
  rw [List.filter_filter]
  apply List.filter_congr
  intro a _
  simp only [Bool.and_eq_left_iff_imp, decide_eq_true_eq]
  exact fun hlt => lt_of_lt_of_le hlt h

end Scan

/-!
# Scans that stop at an empty page

A client that takes every page for a full one and stops at the first page without entries
does not come past a whole window of rows that are not shown.
-/

section Gaps

variable (L : Listing α β κ) (limit : Nat)

/--
The entries down to the first `limit` rows in a row that are not shown, of which `gap`
have been passed.
-/
def upToGap : Nat -> List α -> List β
  | _, [] => []
  | gap, a :: rest =>
      match L.entry a with
      | some b => b :: upToGap 0 rest
      | none => if gap + 1 = limit then [] else upToGap (gap + 1) rest

/-- Somewhere behind `limit` rows in a row that are not shown is an entry with `p`. -/
def HidesBehindGap (p : β -> Bool) (rows : List α) : Prop :=
  exists start, (forall i, i < limit -> exists a, rows[start + i]? = some a ∧
      L.entry a = none) ∧
    exists later a b, start + limit ≤ later ∧ rows[later]? = some a ∧
      L.entry a = some b ∧ p b = true

variable {L limit}

theorem upToGap_cons_some {gap : Nat} {a : α} {b : β} (ha : L.entry a = some b)
    (rest : List α) :
    L.upToGap limit gap (a :: rest) = b :: L.upToGap limit 0 rest := by
  simp only [upToGap, ha]

theorem upToGap_cons_none {gap : Nat} {a : α} (ha : L.entry a = none) (rest : List α) :
    L.upToGap limit gap (a :: rest) =
      if gap + 1 = limit then [] else L.upToGap limit (gap + 1) rest := by
  simp only [upToGap, ha]

theorem upToGap_of_hidden {gap : Nat} (hgap : gap < limit) {rows : List α}
    (h : forall a, a ∈ rows.take (limit - gap) -> L.entry a = none) :
    L.upToGap limit gap rows = [] := by
  induction rows generalizing gap with
  | nil => rfl
  | cons a rest ih =>
      have hpos : limit - gap = (limit - (gap + 1)) + 1 := by omega
      rw [hpos, List.take_succ_cons] at h
      rw [upToGap_cons_none (h a List.mem_cons_self)]
      split
      · rfl
      · exact ih (by omega) (fun a' ha' => h a' (List.mem_cons_of_mem _ ha'))

theorem upToGap_append {gap : Nat} {front : List α} (hfront : gap + front.length < limit)
    {a : α} {b : β} (ha : L.entry a = some b) (rest : List α) :
    L.upToGap limit gap (front ++ a :: rest) =
      front.filterMap L.entry ++ b :: L.upToGap limit 0 rest := by
  induction front generalizing gap with
  | nil =>
      rw [List.nil_append, upToGap_cons_some ha]
      rfl
  | cons x front ih =>
      rw [List.length_cons] at hfront
      rw [List.cons_append]
      cases hx : L.entry x with
      | some y =>
          rw [upToGap_cons_some hx, ih (by omega), List.filterMap_cons_some hx,
            List.cons_append]
      | none =>
          rw [upToGap_cons_none hx, if_neg (by omega), ih (by omega),
            List.filterMap_cons_none hx]

theorem last_shown {rows : List α} {b : β} (h : (rows.filterMap L.entry).getLast? = some b) :
    exists front a rest, rows = front ++ a :: rest ∧ L.entry a = some b ∧
      forall x, x ∈ rest -> L.entry x = none := by
  induction rows using List.reverseRecOn with
  | nil => cases h
  | append_singleton front a ih =>
      rw [List.filterMap_append] at h
      cases ha : L.entry a with
      | some b' =>
          rw [List.filterMap_cons_some ha] at h
          have hb : b' = b := by simpa using h
          exact ⟨front, a, [], rfl, by rw [ha, hb], fun x hx => by cases hx⟩
      | none =>
          rw [List.filterMap_cons_none ha, List.filterMap_nil, List.append_nil] at h
          rcases ih h with ⟨front', a', rest, hfront, ha', hrest⟩
          refine ⟨front', a', rest ++ [a], by rw [hfront]; simp, ha', ?_⟩
          intro x hx
          rcases List.mem_append.mp hx with hmem | hmem
          · exact hrest x hmem
          · rw [List.mem_singleton.mp hmem]
            exact ha

theorem below_of_split [LinearOrder κ] {front rest : List α} {a : α}
    (hsorted : (front ++ a :: rest).Pairwise (fun x y => L.key y < L.key x)) :
    L.below (L.key a) (front ++ a :: rest) = rest := by
  rcases List.pairwise_append.mp hsorted with ⟨_, htail, hcross⟩
  have hrest := (List.pairwise_cons.mp htail).left
  unfold below
  rw [List.filter_append, List.filter_cons_of_neg (by simp)]
  have hfront : front.filter (fun x => decide (L.key x < L.key a)) = [] := by
    apply List.filter_eq_nil_iff.mpr
    intro x hx
    have hlt := hcross x hx a List.mem_cons_self
    simpa using le_of_lt hlt
  rw [hfront, List.nil_append]
  apply List.filter_eq_self.mpr
  intro x hx
  simpa using hrest x hx

theorem page_split [LinearOrder κ] {rows : List α} {b : β}
    (hsorted : rows.Pairwise (fun x y => L.key y < L.key x))
    (hb : (L.page limit rows).getLast? = some b) :
    exists front a, rows = front ++ a :: L.below (L.entryKey b) rows ∧ L.entry a = some b ∧
      front.length < limit ∧ L.page limit rows = front.filterMap L.entry ++ [b] := by
  rcases last_shown hb with ⟨front, a, rest, hwindow, ha, hrest⟩
  have hrows : rows = front ++ a :: (rest ++ rows.drop limit) := by
    rw [← List.cons_append, ← List.append_assoc, ← hwindow, List.take_append_drop]
  have hbelow : L.below (L.entryKey b) rows = rest ++ rows.drop limit := by
    have hsplit := below_of_split (L := L) (hrows ▸ hsorted)
    rw [← hrows] at hsplit
    rw [L.keeps a b ha]
    exact hsplit
  refine ⟨front, a, by rw [hbelow]; exact hrows, ha, ?_, ?_⟩
  · have hlength := List.length_take_le limit rows
    rw [hwindow, List.length_append, List.length_cons] at hlength
    omega
  · unfold page
    rw [hwindow, List.filterMap_append, List.filterMap_cons_some ha,
      List.filterMap_eq_nil_iff.mpr hrest]

theorem upToGap_page [LinearOrder κ] {rows : List α} {b : β}
    (hsorted : rows.Pairwise (fun x y => L.key y < L.key x))
    (hb : (L.page limit rows).getLast? = some b) :
    L.upToGap limit 0 rows =
      L.page limit rows ++ L.upToGap limit 0 (L.below (L.entryKey b) rows) := by
  rcases page_split hsorted hb with ⟨front, a, hrows, ha, hshort, hpage⟩
  rw [hpage]
  conv => lhs; rw [hrows]
  rw [upToGap_append (by omega) ha, List.append_assoc, List.singleton_append]

theorem entries_page [LinearOrder κ] {rows : List α} {b : β}
    (hsorted : rows.Pairwise (fun x y => L.key y < L.key x))
    (hb : (L.page limit rows).getLast? = some b) :
    rows.filterMap L.entry =
      L.page limit rows ++ (L.below (L.entryKey b) rows).filterMap L.entry := by
  rcases page_split hsorted hb with ⟨front, a, hrows, ha, _, hpage⟩
  rw [hpage]
  conv => lhs; rw [hrows]
  rw [List.filterMap_append, List.filterMap_cons_some ha, List.append_assoc,
    List.singleton_append]

theorem upToGap_empty {rows : List α} (hlimit : 0 < limit) (h : L.page limit rows = []) :
    L.upToGap limit 0 rows = [] := by
  apply upToGap_of_hidden hlimit
  rw [Nat.sub_zero]
  exact List.filterMap_eq_nil_iff.mp h

theorem upToGap_prefix (gap : Nat) (rows : List α) :
    L.upToGap limit gap rows <+: rows.filterMap L.entry := by
  induction rows generalizing gap with
  | nil => exact List.prefix_rfl
  | cons a rest ih =>
      cases ha : L.entry a with
      | some b =>
          rw [upToGap_cons_some ha, List.filterMap_cons_some ha]
          exact (List.prefix_cons_inj b).mpr (ih 0)
      | none =>
          rw [upToGap_cons_none ha, List.filterMap_cons_none ha]
          split
          · exact List.nil_prefix
          · exact ih (gap + 1)

theorem hidesBehindGap_shift {p : β -> Bool} {front rest : List α} {a : α} {b : β}
    (hfront : front.length < limit) (ha : L.entry a = some b) :
    L.HidesBehindGap limit p (front ++ a :: rest) <-> L.HidesBehindGap limit p rest := by
  have hget : forall n, (front ++ a :: rest)[front.length + 1 + n]? = rest[n]? := by
    intro n
    rw [List.getElem?_append_right (by omega), show front.length + 1 + n - front.length = n + 1
      by omega, List.getElem?_cons_succ]
  have hat : (front ++ a :: rest)[front.length]? = some a := by simp
  constructor
  · intro h
    rcases h with ⟨start, hgap, later, a', b', hlater, ha', hb', hp⟩
    have hstart : front.length + 1 ≤ start := by
      by_contra hlt
      rcases hgap (front.length - start) (by omega) with ⟨x, hx, hnone⟩
      rw [show start + (front.length - start) = front.length by omega, hat] at hx
      cases hx
      rw [ha] at hnone
      cases hnone
    refine ⟨start - (front.length + 1), ?_, later - (front.length + 1), a', b', by omega, ?_,
      hb', hp⟩
    · intro i hi
      rcases hgap i hi with ⟨x, hx, hnone⟩
      refine ⟨x, ?_, hnone⟩
      rw [← hget, ← hx]
      congr 1
      omega
    · rw [← hget, ← ha']
      congr 1
      omega
  · intro h
    rcases h with ⟨start, hgap, later, a', b', hlater, ha', hb', hp⟩
    refine ⟨front.length + 1 + start, ?_, front.length + 1 + later, a', b', by omega, ?_, hb',
      hp⟩
    · intro i hi
      rcases hgap i hi with ⟨x, hx, hnone⟩
      exact ⟨x, by rw [Nat.add_assoc, hget, hx], hnone⟩
    · rw [hget, ha']

theorem upToGap_hidden_iff (p : β -> Bool) {hidden rows : List α}
    (hhidden : forall a, a ∈ hidden -> L.entry a = none) (hgap : hidden.length < limit) :
    (L.upToGap limit hidden.length rows).filter p = (rows.filterMap L.entry).filter p <->
      ¬L.HidesBehindGap limit p (hidden ++ rows) := by
  induction rows generalizing hidden with
  | nil =>
      constructor
      · intro _ h
        rcases h with ⟨start, _, later, a, b, _, ha, hb, _⟩
        rw [List.append_nil] at ha
        rw [hhidden a (List.mem_of_getElem? ha)] at hb
        cases hb
      · intro _
        rfl
  | cons a rest ih =>
      cases ha : L.entry a with
      | some b =>
          rw [upToGap_cons_some ha, hidesBehindGap_shift hgap ha,
            List.filterMap_cons_some ha, List.filter_cons, List.filter_cons]
          have hrest := @ih [] (fun x hx => by cases hx)
            (Nat.lt_of_le_of_lt (Nat.zero_le _) hgap)
          rw [List.length_nil, List.nil_append] at hrest
          rw [← hrest]
          split
          · constructor
            · intro h
              exact (List.cons.inj h).right
            · intro h
              rw [h]
          · exact Iff.rfl
      | none =>
          rw [upToGap_cons_none ha, List.filterMap_cons_none ha]
          have hmore : forall x, x ∈ hidden ++ [a] -> L.entry x = none := by
            intro x hx
            rcases List.mem_append.mp hx with hmem | hmem
            · exact hhidden x hmem
            · rw [List.mem_singleton.mp hmem]
              exact ha
          have hlength : (hidden ++ [a]).length = hidden.length + 1 := by simp
          have hsplit : hidden ++ a :: rest = (hidden ++ [a]) ++ rest := by simp
          rw [hsplit]
          split
          · rename_i hfull
            rw [List.filter_nil, eq_comm, List.filter_eq_nil_iff]
            constructor
            · intro hnone h
              rcases h with ⟨start, _, later, x, b, hlater, hx, hb, hp⟩
              rw [List.getElem?_append_right (by omega)] at hx
              exact hnone b (List.mem_filterMap.mpr ⟨x, List.mem_of_getElem? hx, hb⟩) hp
            · intro hhides b hb hp
              rcases List.mem_filterMap.mp hb with ⟨x, hx, hxb⟩
              rcases List.mem_iff_getElem?.mp hx with ⟨n, hn⟩
              apply hhides
              refine ⟨0, ?_, limit + n, x, b, by omega, ?_, hxb, hp⟩
              · intro i hi
                rw [Nat.zero_add, List.getElem?_append_left (by omega)]
                have hlt : i < (hidden ++ [a]).length := by omega
                exact ⟨_, List.getElem?_eq_getElem hlt, hmore _ (List.getElem_mem hlt)⟩
              · rw [List.getElem?_append_right (by omega), ← hn]
                congr 1
                omega
          · have hrest := ih hmore (by omega)
            rw [hlength] at hrest
            exact hrest

/-- The scan shows every entry with `p` exactly if none is behind a gap. -/
theorem upToGap_complete_iff (p : β -> Bool) (rows : List α) (hlimit : 0 < limit) :
    (L.upToGap limit 0 rows).filter p = (rows.filterMap L.entry).filter p <->
      ¬L.HidesBehindGap limit p rows :=
  @upToGap_hidden_iff α β κ L limit p [] rows (fun a h => by cases h) hlimit

end Gaps

end Listing

section Clients

variable {σ γ : Type}

/--
A client asks for a page, continues at the cursor that comes with it, and stops at a page
without one. Between two requests the state may change.
-/
inductive Follows (ask : σ -> Option γ -> List β -> Option γ -> σ -> Prop)
    (idle : σ -> σ -> Prop) : σ -> Option γ -> List β -> Prop where
  | last {s t : σ} {cursor : Option γ} {items : List β} :
      ask s cursor items none t -> Follows ask idle s cursor items
  | more {s t u : σ} {cursor : Option γ} {items rest : List β} (next : γ) :
      ask s cursor items (some next) t -> idle t u ->
      Follows ask idle u (some next) rest -> Follows ask idle s cursor (items ++ rest)

variable {L : Listing α β κ} {limit : Nat}
  {ask : σ -> Option γ -> List β -> Option γ -> σ -> Prop} {idle : σ -> σ -> Prop}
  {I : σ -> Prop} {keyOf : γ -> κ} {rows : List α}

/-- The answer is the page below a cursor, with the cursor at its end. -/
structure AnswersPage (L : Listing α β κ) (limit : Nat) (keyOf : γ -> κ) (rows : List α)
    (items : List β) (next : Option γ) : Prop where
  items : items = L.page limit rows
  next : next.map keyOf = L.nextKey limit rows

theorem AnswersPage.full {items : List β} {next : γ}
    (h : AnswersPage L limit keyOf rows items (some next)) :
    (L.page limit rows).length = limit ∧
      exists b, (L.page limit rows).getLast? = some b ∧ keyOf next = L.entryKey b := by
  have hnext := h.next
  unfold Listing.nextKey at hnext
  split at hnext
  · rename_i hfull
    rcases Option.map_eq_some_iff.mp hnext.symm with ⟨b, hb, hkey⟩
    exact ⟨hfull, b, hb, hkey.symm⟩
  · cases hnext

theorem AnswersPage.short {items : List β} (hlimit : 0 < limit)
    (h : AnswersPage L limit keyOf rows items (none : Option γ)) :
    (L.page limit rows).length ≠ limit := by
  intro hfull
  have hnext := h.next
  unfold Listing.nextKey at hnext
  rw [if_pos hfull] at hnext
  have hnil := List.getLast?_eq_none_iff.mp (Option.map_eq_none_iff.mp hnext.symm)
  rw [hnil] at hfull
  exact absurd hfull (Nat.ne_of_lt hlimit)

variable [LinearOrder κ]

/-- Requests with a cursor that are answered by the pages of fixed rows. -/
structure Pages (L : Listing α β κ) (limit : Nat) (keyOf : γ -> κ) (rows : List α)
    (ask : σ -> Option γ -> List β -> Option γ -> σ -> Prop) (idle : σ -> σ -> Prop)
    (I : σ -> Prop) : Prop where
  answers : forall s k items next t, I s -> ask s (some k) items next t ->
    AnswersPage L limit keyOf (L.below (keyOf k) rows) items next ∧ I t
  total : forall s k, I s -> exists items next t, ask s (some k) items next t
  idles : forall s t, I s -> idle s t -> I t
  rests : forall s, idle s s

theorem below_next {k : κ} {b : β}
    (hb : (L.page limit (L.below k rows)).getLast? = some b) : L.entryKey b < k := by
  have hmem : b ∈ L.page limit (L.below k rows) := List.mem_of_getLast? hb
  rcases List.mem_filterMap.mp hmem with ⟨a, ha, hentry⟩
  have hlt := (List.mem_filter.mp (List.mem_of_mem_take ha)).right
  rw [L.keeps a b hentry]
  simpa using hlt

theorem scan_of_follows (hlimit : 0 < limit)
    (hpages : Pages L limit keyOf rows ask idle I) {s : σ} {k : γ} {items : List β}
    (hs : I s) (h : Follows ask idle s (some k) items) :
    L.Scan limit (L.below (keyOf k) rows) items := by
  generalize hcursor : some k = cursor at h
  induction h generalizing k with
  | last hask =>
      subst hcursor
      rcases hpages.answers _ _ _ _ _ hs hask with ⟨hanswer, _⟩
      rw [hanswer.items]
      exact .last (hanswer.short hlimit)
  | more next hask hidle _ ih =>
      subst hcursor
      rcases hpages.answers _ _ _ _ _ hs hask with ⟨hanswer, ht⟩
      rcases hanswer.full with ⟨hfull, b, hb, hkey⟩
      have hrest := ih (hpages.idles _ _ ht hidle) rfl
      rw [hkey, ← Listing.below_below (le_of_lt (below_next hb)) rows] at hrest
      rw [hanswer.items]
      exact .more b hfull hb hrest

theorem exists_follows
    (hpages : Pages L limit keyOf rows ask idle I) {s : σ} (hs : I s) (k : γ) :
    exists items, Follows ask idle s (some k) items := by
  induction hn : (L.below (keyOf k) rows).length using Nat.strongRecOn generalizing s k with
  | _ n ih =>
      rcases hpages.total s k hs with ⟨items, next, t, hask⟩
      rcases hpages.answers _ _ _ _ _ hs hask with ⟨hanswer, ht⟩
      cases next with
      | none => exact ⟨items, .last hask⟩
      | some next =>
          rcases hanswer.full with ⟨hfull, b, hb, hkey⟩
          have hlt := Listing.below_length_lt hfull hb
          rw [Listing.below_below (le_of_lt (below_next hb)), ← hkey, hn] at hlt
          rcases ih _ hlt ht next rfl with ⟨rest, hrest⟩
          exact ⟨_, .more next hask (hpages.rests t) hrest⟩

end Clients
end KeysetScan
end ConversationService
