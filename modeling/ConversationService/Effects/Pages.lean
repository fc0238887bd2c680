import ConversationService.Model.System

/-!
# Pages of the history

A page holds the live rows among the newest ones, newest first. The message next to a
target in its page is the newest live one below it.
-/

namespace ConversationService

open Python Programs

variable {s : Store} {c : UUID} {limit : Nat}

/-- The id is among the newest `limit` stored rows of the conversation, live or not. -/
def InWindow (s : Store) (c : UUID) (limit : Nat) (id : UUID) : Prop :=
  exists row, (id, row) ∈ ((s.messages c).rows).take limit

/-- The conversation has a row under this id that is not deleted. -/
def IsLive (s : Store) (c id : UUID) : Prop :=
  exists row, s.row c id = some row ∧ row.status ≠ .deleted

theorem message?_of_live {status : RowStatus} (h : status ≠ .deleted) :
    exists shown, status.message? = some shown := by
  cases status with
  | pending => exact ⟨_, rfl⟩
  | sent => exact ⟨_, rfl⟩
  | failed => exact ⟨_, rfl⟩
  | deleted => exact absurd rfl h

theorem row_of_mem_rows {entry : UUID × Row} (h : entry ∈ (s.messages c).rows) :
    s.row c entry.1 = some entry.2 := by
  unfold Store.row
  rw [ClusteredTable.Partition.get_eq_some_iff]
  exact h

theorem mem_rows_of_row {id : UUID} {row : Row} (h : s.row c id = some row) :
    (id, row) ∈ (s.messages c).rows := by
  unfold Store.row at h
  rw [ClusteredTable.Partition.get_eq_some_iff] at h
  exact h

theorem row_of_mem_page {msg : Message} (h : msg ∈ historyPage s c limit) :
    InWindow s c limit msg.messageId ∧
      exists row shown, s.row c msg.messageId = some row ∧
        row.status.message? = some shown ∧
        msg = MessageRepository.rowMessage c msg.messageId shown row := by
  rcases List.mem_filterMap.mp h with ⟨entry, hentry, hlive⟩
  unfold MessageRepository.liveMessage at hlive
  rcases Option.map_eq_some_iff.mp hlive with ⟨shown, hshown, rfl⟩
  exact ⟨⟨entry.2, hentry⟩, entry.2, shown,
    row_of_mem_rows (List.mem_of_mem_take hentry), hshown, rfl⟩

theorem isLive_of_mem_page {msg : Message} (h : msg ∈ historyPage s c limit) :
    IsLive s c msg.messageId := by
  rcases (row_of_mem_page h).right with ⟨row, shown, hrow, hshown, _⟩
  refine ⟨row, hrow, ?_⟩
  intro hdeleted
  rw [hdeleted] at hshown
  cases hshown

theorem mem_page_of_live {id : UUID} (hwindow : InWindow s c limit id)
    (hlive : IsLive s c id) : exists msg, msg ∈ historyPage s c limit ∧
      msg.messageId = id := by
  rcases hwindow with ⟨row, hmem⟩
  rcases hlive with ⟨row', hrow', hstatus⟩
  have hrow := row_of_mem_rows (List.mem_of_mem_take hmem)
  rw [hrow'] at hrow
  cases hrow
  rcases message?_of_live hstatus with ⟨shown, hshown⟩
  refine ⟨MessageRepository.rowMessage c id shown row, ?_, rfl⟩
  apply List.mem_filterMap.mpr
  refine ⟨(id, row), hmem, ?_⟩
  unfold MessageRepository.liveMessage
  rw [hshown]
  rfl

theorem sorted_historyPage (s : Store) (c : UUID) (limit : Nat) :
    (historyPage s c limit).Pairwise (fun a b => b.messageId < a.messageId) := by
  have hrows : ((s.messages c).rows.take limit).Pairwise (fun a b => b.1 < a.1) :=
    (s.messages c).sorted.sublist (List.take_sublist _ _)
  apply hrows.filterMap
  intro a a' hlt b hb b' hb'
  unfold MessageRepository.liveMessage at hb hb'
  rcases Option.map_eq_some_iff.mp hb with ⟨_, _, rfl⟩
  rcases Option.map_eq_some_iff.mp hb' with ⟨_, _, rfl⟩
  exact hlt

theorem inWindow_of_lt {lower upper : UUID} {row : Row}
    (hwindow : InWindow s c limit lower) (hrow : s.row c upper = some row)
    (hlt : lower < upper) : InWindow s c limit upper := by
  rcases hwindow with ⟨row', hmem⟩
  exact ⟨row, (s.messages c).mem_take_of_lt (mem_rows_of_row hrow) hmem hlt⟩

/-!
# Locating a message
-/

section Locate

variable {page below : List Message} {target : Message} {m : UUID}

theorem locate_split (h : MessageService.locate m page = some (target, below)) :
    target.messageId = m ∧ exists above, page = above ++ target :: below := by
  induction page with
  | nil => cases h
  | cons head rest ih =>
      unfold MessageService.locate at h
      split at h
      · rename_i hid
        cases h
        exact ⟨hid, [], rfl⟩
      · rcases ih h with ⟨hid, above, heq⟩
        exact ⟨hid, head :: above, by rw [heq]; rfl⟩

theorem isLive_of_locate (h : MessageService.locate m (historyPage s c limit) =
    some (target, below)) : IsLive s c m := by
  rcases locate_split h with ⟨rfl, above, heq⟩
  have hmem : target ∈ historyPage s c limit := by
    rw [heq]
    simp
  exact isLive_of_mem_page hmem

theorem locate_of_mem {msg : Message} (h : msg ∈ page) (hid : msg.messageId = m) :
    exists target below, MessageService.locate m page = some (target, below) := by
  induction page with
  | nil => cases h
  | cons head rest ih =>
      unfold MessageService.locate
      by_cases hhead : head.messageId = m
      · exact ⟨head, rest, by rw [if_pos hhead]⟩
      · rcases List.mem_cons.mp h with rfl | hrest
        · exact absurd hid hhead
        · rw [if_neg hhead]
          exact ih hrest

theorem mem_below_iff (hsorted : page.Pairwise (fun a b => b.messageId < a.messageId))
    (h : MessageService.locate m page = some (target, below)) (msg : Message) :
    msg ∈ below <-> msg ∈ page ∧ msg.messageId < m := by
  rcases locate_split h with ⟨rfl, above, rfl⟩
  rw [List.pairwise_append] at hsorted
  rcases hsorted with ⟨_, htail, hcross⟩
  have hbelow := (List.pairwise_cons.mp htail).left
  constructor
  · intro hmem
    exact ⟨by simp [hmem], hbelow msg hmem⟩
  · intro hmem
    rcases hmem with ⟨hpage, hlt⟩
    rcases List.mem_append.mp hpage with habove | hrest
    · have hgt := hcross msg habove target (by simp)
      exact absurd hlt (not_lt_of_gt hgt)
    · rcases List.mem_cons.mp hrest with rfl | hmem
      · exact absurd hlt (lt_irrefl _)
      · exact hmem

theorem sorted_below (hsorted : page.Pairwise (fun a b => b.messageId < a.messageId))
    (h : MessageService.locate m page = some (target, below)) :
    below.Pairwise (fun a b => b.messageId < a.messageId) := by
  rcases locate_split h with ⟨_, above, rfl⟩
  rw [List.pairwise_append] at hsorted
  exact (List.pairwise_cons.mp hsorted.right.left).right

end Locate

/-!
# The row next to a target
-/

/-- The newest live row below the target, in the same window. -/
structure NextBelow (s : Store) (c : UUID) (limit : Nat) (u m : UUID) : Prop where
  window : InWindow s c limit u
  below : u < m
  between : forall id, u < id -> id < m -> ¬IsLive s c id

/-- The prompt that `regenerate` takes is the row next below its target. -/
theorem prompt_iff_nextBelow {u m : UUID} (hu : IsLive s c u) (hm : IsLive s c m) :
    (exists target below prompt,
      MessageService.locate m (historyPage s c limit) = some (target, below) ∧
        below.head? = some prompt ∧ prompt.messageId = u) <->
    NextBelow s c limit u m := by
  have hsorted := sorted_historyPage s c limit
  constructor
  · intro h
    rcases h with ⟨target, below, prompt, hlocate, hhead, rfl⟩
    have hmem : prompt ∈ below := List.mem_of_mem_head? hhead
    have hpage := (mem_below_iff hsorted hlocate prompt).mp hmem
    have hwindow := (row_of_mem_page hpage.left).left
    refine ⟨hwindow, hpage.right, ?_⟩
    intro id hlow hhigh hlive
    have hinWindow : InWindow s c limit id := by
      rcases hlive with ⟨row, hrow, _⟩
      exact inWindow_of_lt hwindow hrow hlow
    rcases mem_page_of_live hinWindow hlive with ⟨msg, hmsg, rfl⟩
    have hbelow := (mem_below_iff hsorted hlocate msg).mpr ⟨hmsg, hhigh⟩
    cases hcase : below with
    | nil =>
        rw [hcase] at hmem
        cases hmem
    | cons head rest =>
        rw [hcase] at hhead hbelow
        cases hhead
        have hrest := sorted_below hsorted hlocate
        rw [hcase, List.pairwise_cons] at hrest
        rcases List.mem_cons.mp hbelow with rfl | hin
        · exact lt_irrefl _ hlow
        · exact lt_asymm hlow (hrest.left msg hin)
  · intro h
    have hmWindow : InWindow s c limit m := by
      rcases hm with ⟨row, hrow, _⟩
      exact inWindow_of_lt h.window hrow h.below
    rcases mem_page_of_live hmWindow hm with ⟨msgM, hmsgM, hidM⟩
    rcases locate_of_mem hmsgM hidM with ⟨target, below, hlocate⟩
    rcases mem_page_of_live h.window hu with ⟨msgU, hmsgU, hidU⟩
    have hbelow := (mem_below_iff hsorted hlocate msgU).mpr
      ⟨hmsgU, by rw [hidU]; exact h.below⟩
    cases hcase : below with
    | nil =>
        rw [hcase] at hbelow
        cases hbelow
    | cons prompt rest =>
        have hprompt := (mem_below_iff hsorted hlocate prompt).mp (by rw [hcase]; simp)
        refine ⟨target, below, prompt, hlocate, by rw [hcase]; rfl, ?_⟩
        rw [hcase] at hbelow
        rcases List.mem_cons.mp hbelow with heq | hin
        · rw [← heq, hidU]
        · exfalso
          have hrest := sorted_below hsorted hlocate
          rw [hcase, List.pairwise_cons] at hrest
          have hgt := hrest.left msgU hin
          rw [hidU] at hgt
          exact h.between prompt.messageId hgt hprompt.right
            (isLive_of_mem_page hprompt.left)

end ConversationService
