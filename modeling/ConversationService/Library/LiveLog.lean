import Mathlib.Order.Lattice
import Mathlib.Data.List.Basic
import Mathlib.Data.List.Pairwise

/-!
# Reading a log and following its channel

A publisher appends an entry to a log, under a key above those of the log, and then sends
the entry on a channel. A reader takes what the log holds at some moment and from then on
follows the channel, from a place before that moment; an entry that is not above the last
one it has shown was read from the log before. Several publishers may send their entries in
another order than they have logged them. This module says what such a reader shows.
-/

namespace ConversationService
namespace LiveLog

variable {κ α : Type}

/-!
# Following
-/

/-- The key of the last entry that was shown, if any has been. -/
def lastKey (last : κ) (entries : List (κ × α)) : κ :=
  (entries.getLast?.map Prod.fst).getD last

@[simp] theorem lastKey_nil (last : κ) : lastKey last ([] : List (κ × α)) = last := rfl

@[simp] theorem lastKey_concat (last : κ) (entries : List (κ × α)) (e : κ × α) :
    lastKey last (entries ++ [e]) = e.1 := by
  unfold lastKey
  rw [List.getLast?_concat]
  rfl

theorem lastKey_cons (last : κ) (e : κ × α) (rest : List (κ × α)) :
    lastKey last (e :: rest) = lastKey e.1 rest := by
  rcases List.eq_nil_or_concat rest with rfl | ⟨front, d, rfl⟩
  · rfl
  · rw [List.concat_eq_append, lastKey_concat, <- List.cons_append, lastKey_concat]

theorem lastKey_append (last : κ) (entries rest : List (κ × α)) :
    lastKey last (entries ++ rest) = lastKey (lastKey last entries) rest := by
  rcases List.eq_nil_or_concat rest with rfl | ⟨front, d, rfl⟩
  · rw [List.append_nil]
    rfl
  · rw [List.concat_eq_append, <- List.append_assoc, lastKey_concat, lastKey_concat]

theorem lastKey_mem (last : κ) (entries : List (κ × α)) :
    entries = [] ∨ exists d, d ∈ entries ∧ lastKey last entries = d.1 := by
  rcases List.eq_nil_or_concat entries with rfl | ⟨front, d, rfl⟩
  · exact Or.inl rfl
  · refine Or.inr ⟨d, by simp, ?_⟩
    rw [List.concat_eq_append, lastKey_concat]

variable [LinearOrder κ]

/-- The entries of a channel that are shown after one with the key `last`. -/
def follow (last : κ) : List (κ × α) -> List (κ × α)
  | [] => []
  | e :: rest => if e.1 ≤ last then follow last rest else e :: follow e.1 rest

/-- The keys of the entries increase. -/
def Increasing (entries : List (κ × α)) : Prop :=
  entries.Pairwise (fun d e => d.1 < e.1)

theorem follow_cons (last : κ) (e : κ × α) (rest : List (κ × α)) :
    follow last (e :: rest) =
      if e.1 ≤ last then follow last rest else e :: follow e.1 rest := rfl

theorem follow_filter_single (last : κ) (wants : κ × α -> Bool) (e : κ × α) :
    follow last ([e].filter wants) = if wants e = true ∧ last < e.1 then [e] else [] := by
  cases hwants : wants e with
  | false =>
      rw [List.filter_cons_of_neg (by simp [hwants]), if_neg (by simp)]
      rfl
  | true =>
      rw [List.filter_cons_of_pos hwants, List.filter_nil, follow_cons]
      by_cases hle : e.1 ≤ last
      · rw [if_pos hle, if_neg (fun h => not_lt_of_ge hle h.right)]
        rfl
      · rw [if_neg hle, if_pos ⟨rfl, lt_of_not_ge hle⟩]
        rfl

theorem mem_follow {last : κ} {channel : List (κ × α)} {e : κ × α}
    (h : e ∈ follow last channel) : e ∈ channel := by
  induction channel generalizing last with
  | nil => cases h
  | cons d rest ih =>
      unfold follow at h
      split at h
      · exact List.mem_cons_of_mem _ (ih h)
      · rcases List.mem_cons.mp h with rfl | hrest
        · exact List.mem_cons_self
        · exact List.mem_cons_of_mem _ (ih hrest)

theorem follow_append (last : κ) (channel rest : List (κ × α)) :
    follow last (channel ++ rest) =
      follow last channel ++ follow (lastKey last (follow last channel)) rest := by
  induction channel generalizing last with
  | nil => rfl
  | cons d channel ih =>
      rw [List.cons_append, follow_cons, follow_cons]
      split
      · exact ih last
      · rw [ih d.1, lastKey_cons, List.cons_append]

/-- An entry that is not shown was overtaken by one that is, or by the last one before. -/
theorem overtaken_of_mem (last : κ) {channel : List (κ × α)} {e : κ × α}
    (h : e ∈ channel) :
    e ∈ follow last channel ∨ e.1 ≤ last ∨ exists d, d ∈ follow last channel ∧ e.1 ≤ d.1 := by
  induction channel generalizing last with
  | nil => cases h
  | cons d rest ih =>
      unfold follow
      split
      · rename_i hle
        rcases List.mem_cons.mp h with rfl | hrest
        · exact Or.inr (Or.inl hle)
        · exact ih last hrest
      · rcases List.mem_cons.mp h with rfl | hrest
        · exact Or.inl List.mem_cons_self
        · rcases ih d.1 hrest with hshown | hle | ⟨c, hc, hle⟩
          · exact Or.inl (List.mem_cons_of_mem _ hshown)
          · exact Or.inr (Or.inr ⟨d, List.mem_cons_self, hle⟩)
          · exact Or.inr (Or.inr ⟨c, List.mem_cons_of_mem _ hc, hle⟩)

/-- A channel in the order of the log is shown from the last entry on. -/
theorem follow_eq_filter {last : κ} {channel : List (κ × α)} (h : Increasing channel) :
    follow last channel = channel.filter (fun e => last < e.1) := by
  induction channel generalizing last with
  | nil => rfl
  | cons d rest ih =>
      rcases List.pairwise_cons.mp h with ⟨hhead, hrest⟩
      unfold follow
      split
      · rename_i hle
        rw [List.filter_cons_of_neg (by simpa using hle), ih hrest]
      · rename_i hnot
        have hall : rest.filter (fun e => last < e.1) = rest.filter (fun e => d.1 < e.1) := by
          apply List.filter_congr
          intro e he
          have hd : d.1 < e.1 := hhead e he
          rw [decide_eq_true hd, decide_eq_true (lt_trans (lt_of_not_ge hnot) hd)]
        rw [List.filter_cons_of_pos (by simpa using hnot), ih hrest, hall]

/-!
# Keys of increasing entries
-/

theorem Increasing.sublist {entries entries' : List (κ × α)} (h : Increasing entries)
    (hsub : List.Sublist entries' entries) : Increasing entries' :=
  List.Pairwise.sublist hsub h

theorem Increasing.eq_of_key {entries : List (κ × α)} (h : Increasing entries) {d e : κ × α}
    (hd : d ∈ entries) (he : e ∈ entries) (hkey : d.1 = e.1) : d = e := by
  by_contra hne
  have hlt : d.1 < e.1 ∨ e.1 < d.1 := by
    refine List.Pairwise.forall_of_forall_of_flip (R := fun d e => d ≠ e -> d.1 < e.1 ∨ e.1 < d.1)
      ?_ ?_ ?_ hd he hne
    · intro x _ hx
      exact absurd rfl hx
    · exact h.imp (fun hlt _ => Or.inl hlt)
    · exact h.imp (fun hlt _ => Or.inr hlt)
  rcases hlt with hlt | hlt
  · exact absurd hkey (ne_of_lt hlt)
  · exact absurd hkey.symm (ne_of_lt hlt)

theorem Increasing.le_lastKey {entries : List (κ × α)} (h : Increasing entries) (last : κ)
    {e : κ × α} (he : e ∈ entries) : e.1 ≤ lastKey last entries := by
  rcases List.eq_nil_or_concat entries with rfl | ⟨front, d, rfl⟩
  · cases he
  · rw [List.concat_eq_append] at h he ⊢
    rw [lastKey_concat]
    rcases List.mem_append.mp he with hfront | hlast
    · exact le_of_lt ((List.pairwise_append.mp h).right.right e hfront d (by simp))
    · rw [List.mem_singleton.mp hlast]

theorem Increasing.filter_above {front back : List (κ × α)} {e : κ × α}
    (h : Increasing (front ++ e :: back)) :
    (front ++ e :: back).filter (fun d => e.1 < d.1) = back := by
  rcases List.pairwise_append.mp h with ⟨_, hback, hfront⟩
  rcases List.pairwise_cons.mp hback with ⟨habove, _⟩
  have hbefore : front.filter (fun d => e.1 < d.1) = [] := by
    apply List.filter_eq_nil_iff.mpr
    intro d hd
    simpa using le_of_lt (hfront d hd e List.mem_cons_self)
  have hafter : back.filter (fun d => e.1 < d.1) = back := by
    apply List.filter_eq_self.mpr
    intro d hd
    exact decide_eq_true (habove d hd)
  rw [List.filter_append, hbefore, List.filter_cons_of_neg (by simp), hafter]
  rfl

/-!
# Publishers
-/

/-- The log, the entries that are logged but not sent yet, and the channel. -/
structure Publishing (κ α : Type) where
  log : List (κ × α)
  pending : List (κ × α)
  channel : List (κ × α)

namespace Publishing

inductive Step : Publishing κ α -> Publishing κ α -> Prop where
  | append (log before after channel : List (κ × α)) (e : κ × α) :
      (forall d, d ∈ log -> d.1 < e.1) ->
      Step ⟨log, before ++ after, channel⟩
        ⟨log ++ [e], before ++ e :: after, channel⟩
  | send (log before after channel : List (κ × α)) (e : κ × α) :
      Step ⟨log, before ++ e :: after, channel⟩
        ⟨log, before ++ after, channel ++ [e]⟩

/-- The publishers take turns: nobody appends while an entry is still to be sent. -/
def StepInTurn (p q : Publishing κ α) : Prop :=
  Step p q ∧ (q.log ≠ p.log -> p.pending = [])

/-- Every entry of the log is sent once, or still to be sent. -/
structure Accounted (p : Publishing κ α) : Prop where
  increasing : Increasing p.log
  sent : p.log.Perm (p.channel ++ p.pending)

/-- The entries are sent in the order of the log. -/
structure InTurn (p : Publishing κ α) : Prop where
  increasing : Increasing p.log
  sent : p.log = p.channel ++ p.pending
  single : p.pending.length ≤ 1

theorem increasing_concat {log : List (κ × α)} {e : κ × α} (h : Increasing log)
    (he : forall d, d ∈ log -> d.1 < e.1) : Increasing (log ++ [e]) := by
  refine List.pairwise_append.mpr ⟨h, List.pairwise_singleton _ _, ?_⟩
  intro d hd x hx
  rw [List.mem_singleton.mp hx]
  exact he d hd

theorem accounted_step {p q : Publishing κ α} (hstep : Step p q) (h : Accounted p) :
    Accounted q := by
  cases hstep with
  | append log before after channel e he =>
      refine ⟨increasing_concat h.increasing he, ?_⟩
      have hsent : log.Perm (channel ++ (before ++ after)) := h.sent
      have hnew : (log ++ [e]).Perm ((channel ++ before) ++ after ++ [e]) := by
        rw [List.append_assoc channel before after]
        exact hsent.append_right [e]
      refine hnew.trans ?_
      show ((channel ++ before) ++ after ++ [e]).Perm (channel ++ (before ++ e :: after))
      rw [List.append_assoc (channel ++ before), <- List.append_assoc channel before]
      exact List.Perm.append_left _ List.perm_append_comm
  | send log before after channel e =>
      refine ⟨h.increasing, ?_⟩
      have hsent : log.Perm (channel ++ (before ++ e :: after)) := h.sent
      refine hsent.trans ?_
      show (channel ++ (before ++ e :: after)).Perm (channel ++ [e] ++ (before ++ after))
      rw [List.append_assoc]
      exact List.Perm.append_left _ List.perm_middle

theorem inTurn_step {p q : Publishing κ α} (hstep : StepInTurn p q) (h : InTurn p) :
    InTurn q := by
  rcases hstep with ⟨hstep, hturn⟩
  cases hstep with
  | append log before after channel e he =>
      have hpending : before ++ after = [] := hturn (by simp)
      rcases List.append_eq_nil_iff.mp hpending with ⟨rfl, rfl⟩
      have hsent : log = channel ++ [] := h.sent
      refine ⟨increasing_concat h.increasing he, ?_, Nat.le_refl 1⟩
      show log ++ [e] = channel ++ [e]
      rw [hsent, List.append_nil]
  | send log before after channel e =>
      have hsingle : (before ++ e :: after).length ≤ 1 := h.single
      rw [List.length_append, List.length_cons] at hsingle
      have hbefore : before = [] := List.length_eq_zero_iff.mp (by omega)
      have hafter : after = [] := List.length_eq_zero_iff.mp (by omega)
      subst hbefore
      subst hafter
      have hsent : log = channel ++ [e] := h.sent
      refine ⟨h.increasing, ?_, Nat.zero_le 1⟩
      show log = channel ++ [e] ++ []
      rw [hsent, List.append_nil]

theorem InTurn.accounted {p : Publishing κ α} (h : InTurn p) : Accounted p :=
  ⟨h.increasing, by rw [h.sent]⟩

theorem Accounted.mem_log {p : Publishing κ α} (h : Accounted p) {e : κ × α}
    (he : e ∈ p.channel) : e ∈ p.log :=
  h.sent.mem_iff.mpr (List.mem_append_left _ he)

theorem step_log {p q : Publishing κ α} (hstep : Step p q) :
    p.log <+: q.log ∧ p.channel <+: q.channel := by
  cases hstep with
  | append log before after channel e he => exact ⟨List.prefix_append _ _, List.prefix_rfl⟩
  | send log before after channel e => exact ⟨List.prefix_rfl, List.prefix_append _ _⟩

end Publishing

/-!
# Readers
-/

/-- The log as it was read, and the part of the channel that has been received. -/
structure Reader (κ α : Type) where
  base : List (κ × α)
  start : Nat
  position : Nat

namespace Reader

/-- What a reader shows: entries above `since`, and none of them twice. -/
def shown (since : κ) (wants : κ × α -> Bool) (floor : κ) (r : Reader κ α)
    (channel : List (κ × α)) : List (κ × α) :=
  let base := r.base.filter (fun e => wants e && since < e.1)
  base ++ follow (lastKey floor base)
    (((channel.take r.position).drop r.start).filter wants)

/-- How a reader stands to the publishers. -/
structure Reads (p : Publishing κ α) (r : Reader κ α) : Prop where
  base : r.base <+: p.log
  start : r.start ≤ r.position
  position : r.position ≤ p.channel.length
  covers : r.start ≤ r.base.length
  before : forall e, e ∈ p.channel.take r.start -> e ∈ r.base

variable {since floor : κ} {wants : κ × α -> Bool} {p : Publishing κ α} {r : Reader κ α}

theorem reads_step {q : Publishing κ α} (hstep : Publishing.Step p q) (h : Reads p r) :
    Reads q r := by
  rcases Publishing.step_log hstep with ⟨hlog, hchannel⟩
  refine ⟨h.base.trans hlog, h.start, h.position.trans hchannel.length_le, h.covers, ?_⟩
  intro e he
  apply h.before
  rcases hchannel with ⟨rest, hrest⟩
  rw [<- hrest, List.take_append_of_le_length (h.start.trans h.position)] at he
  exact he

theorem shown_append (h : r.position ≤ p.channel.length) {channel : List (κ × α)}
    (hchannel : p.channel <+: channel) :
    shown since wants floor r channel = shown since wants floor r p.channel := by
  rcases hchannel with ⟨rest, rfl⟩
  unfold shown
  rw [List.take_append_of_le_length h]

theorem reads_log (hp : p.Accounted) {start : Nat} (hstart : start ≤ p.channel.length) :
    Reads p ⟨p.log, start, start⟩ := by
  refine ⟨List.prefix_rfl, Nat.le_refl _, hstart, ?_, ?_⟩
  · have hlength := hp.sent.length_eq
    rw [List.length_append] at hlength
    show start ≤ p.log.length
    omega
  · intro e he
    exact hp.mem_log (List.mem_of_mem_take he)

theorem shown_start (base : List (κ × α)) (start : Nat) (channel : List (κ × α)) :
    shown since wants floor ⟨base, start, start⟩ channel =
      base.filter (fun e => wants e && since < e.1) := by
  unfold shown
  dsimp only
  rw [List.drop_take, Nat.sub_self, List.take_zero, List.filter_nil]
  exact List.append_nil _

theorem shown_next {e : κ × α} (h : Reads p r) (he : p.channel[r.position]? = some e) :
    shown since wants floor { r with position := r.position + 1 } p.channel =
      shown since wants floor r p.channel ++
        (if wants e = true ∧ lastKey floor (shown since wants floor r p.channel) < e.1 then [e]
        else []) ∧
      Reads p { r with position := r.position + 1 } := by
  rcases List.getElem?_eq_some_iff.mp he with ⟨hlt, hget⟩
  have htake : p.channel.take (r.position + 1) = p.channel.take r.position ++ [e] := by
    rw [List.take_succ_eq_append_getElem hlt, hget]
  have hlength : r.start ≤ (p.channel.take r.position).length := by
    rw [List.length_take, Nat.min_eq_left (Nat.le_of_lt hlt)]
    exact h.start
  constructor
  · unfold shown
    dsimp only
    rw [htake, List.drop_append_of_le_length hlength, List.filter_append, follow_append,
      List.append_assoc, List.append_cancel_left_eq, List.append_cancel_left_eq,
      follow_filter_single, lastKey_append]
  · exact ⟨h.base, h.start.trans (Nat.le_succ _), hlt, h.covers, h.before⟩

theorem shown_or_overtaken (hp : p.Accounted) (h : Reads p r)
    (hfloor : forall e, e ∈ p.log -> floor < e.1) {e : κ × α} (hwants : wants e = true)
    (hsince : since < e.1) (he : e ∈ r.base ∨ e ∈ p.channel.take r.position) :
    e ∈ shown since wants floor r p.channel ∨
      exists d, d ∈ shown since wants floor r p.channel ∧ e.1 < d.1 := by
  have hwanted : (wants e && decide (since < e.1)) = true := by
    rw [hwants, decide_eq_true hsince]
    rfl
  by_cases hbase : e ∈ r.base
  · exact Or.inl (List.mem_append_left _ (List.mem_filter.mpr ⟨hbase, hwanted⟩))
  · have hreceived := he.resolve_left hbase
    have hdrop : e ∈ (p.channel.take r.position).drop r.start := by
      rw [<- List.take_append_drop r.start (p.channel.take r.position)] at hreceived
      rcases List.mem_append.mp hreceived with hearly | hlate
      · rw [List.take_take, Nat.min_eq_left h.start] at hearly
        exact absurd (h.before e hearly) hbase
      · exact hlate
    have hchannel : e ∈ (((p.channel.take r.position).drop r.start).filter wants) :=
      List.mem_filter.mpr ⟨hdrop, hwants⟩
    have hlog : e ∈ p.log :=
      hp.mem_log (List.mem_of_mem_take (List.mem_of_mem_drop hdrop))
    rcases overtaken_of_mem (lastKey floor
        (r.base.filter (fun e => wants e && since < e.1))) hchannel with
      hshown | hle | ⟨d, hd, hle⟩
    · exact Or.inl (List.mem_append_right _ hshown)
    · rcases lastKey_mem floor (r.base.filter (fun e => wants e && since < e.1)) with
        hnil | ⟨d, hd, hkey⟩
      · rw [hnil] at hle
        exact absurd hle (not_le_of_gt (hfloor e hlog))
      · rw [hkey] at hle
        rcases lt_or_eq_of_le hle with hlt | heq
        · exact Or.inr ⟨d, List.mem_append_left _ hd, hlt⟩
        · have hdlog : d ∈ p.log := h.base.subset (List.mem_of_mem_filter hd)
          rw [hp.increasing.eq_of_key hlog hdlog heq]
          exact Or.inl (List.mem_append_left _ hd)
    · have hdlog : d ∈ p.log :=
        hp.mem_log (List.mem_of_mem_take (List.mem_of_mem_drop
          (List.mem_of_mem_filter (mem_follow hd))))
      rcases lt_or_eq_of_le hle with hlt | heq
      · exact Or.inr ⟨d, List.mem_append_right _ hd, hlt⟩
      · rw [hp.increasing.eq_of_key hlog hdlog heq]
        exact Or.inl (List.mem_append_right _ hd)

theorem filter_above_lastKey {log : List (κ × α)} (hlog : Increasing log)
    (hfloor : forall e, e ∈ log -> floor < e.1) (wanted : κ × α -> Bool) {k n m : Nat}
    (hk : k ≤ n) (hn : n ≤ log.length) :
    (log.take n).filter wanted ++
        (((log.take m).drop k).filter wanted).filter
          (fun e => lastKey floor ((log.take n).filter wanted) < e.1) =
      (log.take (max n m)).filter wanted := by
  have hbase : Increasing ((log.take n).filter wanted) :=
    hlog.sublist (List.filter_sublist.trans (List.take_sublist n log))
  have hold : forall part : List (κ × α), (forall e, e ∈ part -> e ∈ log.take n) ->
      (part.filter wanted).filter
        (fun e => lastKey floor ((log.take n).filter wanted) < e.1) = [] := by
    intro part hpart
    apply List.filter_eq_nil_iff.mpr
    intro e he
    rcases List.mem_filter.mp he with ⟨hmem, hwanted⟩
    have hle := hbase.le_lastKey floor (List.mem_filter.mpr ⟨hpart e hmem, hwanted⟩)
    simpa using hle
  rcases Nat.le_total m n with hmn | hnm
  · rw [hold, List.append_nil, Nat.max_eq_left hmn]
    intro e he
    have htake := List.mem_of_mem_drop he
    rw [<- Nat.min_eq_left hmn, <- List.take_take] at htake
    exact List.mem_of_mem_take htake
  · have hsplit : log.take m = log.take n ++ (log.take m).drop n := by
      have hboth := (List.take_append_drop n (log.take m)).symm
      rw [List.take_take, Nat.min_eq_left hnm] at hboth
      exact hboth
    have hnew : (((log.take m).drop n).filter wanted).filter
        (fun e => lastKey floor ((log.take n).filter wanted) < e.1) =
          ((log.take m).drop n).filter wanted := by
      apply List.filter_eq_self.mpr
      intro e he
      have hmem := List.mem_of_mem_filter he
      have hlogmem : e ∈ log := List.mem_of_mem_take (List.mem_of_mem_drop hmem)
      rcases lastKey_mem floor ((log.take n).filter wanted) with hnil | ⟨d, hd, hkey⟩
      · rw [hnil]
        exact decide_eq_true (hfloor e hlogmem)
      · rw [hkey]
        have htake : Increasing (log.take n ++ (log.take m).drop n) := by
          rw [<- hsplit]
          exact hlog.sublist (List.take_sublist m log)
        exact decide_eq_true ((List.pairwise_append.mp htake).right.right d
          (List.mem_of_mem_filter hd) e hmem)
    have hlength : k ≤ (log.take n).length := by
      rw [List.length_take, Nat.min_eq_left hn]
      exact hk
    rw [Nat.max_eq_right hnm]
    calc (log.take n).filter wanted ++
          (((log.take m).drop k).filter wanted).filter
            (fun e => lastKey floor ((log.take n).filter wanted) < e.1)
        = (log.take n).filter wanted ++
          ((((log.take n).drop k ++ (log.take m).drop n).filter wanted).filter
            (fun e => lastKey floor ((log.take n).filter wanted) < e.1)) := by
              conv_lhs => rw [hsplit, List.drop_append_of_le_length hlength]
      _ = (log.take n).filter wanted ++ ((log.take m).drop n).filter wanted := by
            rw [List.filter_append, List.filter_append, hnew,
              hold _ (fun e he => List.mem_of_mem_drop he), List.nil_append]
      _ = (log.take m).filter wanted := by
            rw [<- List.filter_append, <- hsplit]

/--
Where the publishers take turns, a reader shows all that it wants of what it has read and
received, in the order of the log.
-/
theorem shown_inTurn (hp : p.InTurn) (h : Reads p r)
    (hfloor : forall e, e ∈ p.log -> floor < e.1)
    (hsince : forall e, e ∈ p.channel.drop r.start -> since < e.1) :
    shown since wants floor r p.channel =
      (p.log.take (max r.base.length r.position)).filter
        (fun e => wants e && since < e.1) := by
  have hchannel : p.channel <+: p.log := ⟨p.pending, hp.sent.symm⟩
  have htake : p.channel.take r.position = p.log.take r.position := by
    rw [hp.sent, List.take_append_of_le_length h.position]
  have hbase : r.base = p.log.take r.base.length := List.prefix_iff_eq_take.mp h.base
  have hreceived : (((p.channel.take r.position).drop r.start).filter wants) =
      ((p.channel.take r.position).drop r.start).filter (fun e => wants e && since < e.1) := by
    apply List.filter_congr
    intro e he
    have hmem : e ∈ p.channel.drop r.start := by
      rw [List.drop_take] at he
      exact List.mem_of_mem_take he
    rw [decide_eq_true (hsince e hmem), Bool.and_true]
  have hincreasing : Increasing (((p.channel.take r.position).drop r.start).filter wants) :=
    hp.increasing.sublist (List.filter_sublist.trans ((List.drop_sublist _ _).trans
      ((List.take_sublist _ _).trans hchannel.sublist)))
  unfold shown
  dsimp only
  rw [follow_eq_filter hincreasing, hreceived, htake, hbase, List.length_take,
    Nat.min_eq_left h.base.length_le]
  exact filter_above_lastKey hp.increasing hfloor _ h.covers h.base.length_le

end Reader

end LiveLog
end ConversationService
