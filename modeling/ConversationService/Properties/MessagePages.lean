import ConversationService.Library.KeysetScan
import ConversationService.Effects.CachedHistory
import ConversationService.Model.MessagesApi

/-!
# Paging through a conversation

A page is a window of the newest rows without the deleted ones, and it has a cursor only
if it is as long as the window. So a deleted row makes the page of its window the last
one, and the live rows of the later windows are never shown. The first page may also come
from the cached list.
-/

namespace ConversationService

open Python KeysetScan Programs

/-- What a client follows; `has_more` says whether there is a cursor to follow. -/
def MessageListResponse.next (page : MessagesApi.MessageListResponse) : Option UUID :=
  if page.hasMore then page.nextCursor else none

/-- A request for a page of messages and its answer. -/
def AsksMessages (svc : MessageService) (c : UUID) (limit : Nat) (s : Store)
    (cursor : Option UUID) (items : List Message) (next : Option UUID) (t : Store) : Prop :=
  exists page, Prog.Finishes storageMachine noFault
      (MessagesApi.getMessageHistory svc c limit cursor) s (.ok page) t ∧
    page.items = items ∧ MessageListResponse.next page = next

/-- The messages that a client collects while the partition does not change. -/
def MessageScan (svc : MessageService) (c : UUID) (limit : Nat) :
    Store -> Option UUID -> List Message -> Prop :=
  Follows (AsksMessages svc c limit) (fun s t => t.messages c = s.messages c)

/-- The live messages of the conversation, each of them once and the newest first. -/
structure ShowsEach (s : Store) (c : UUID) (items : List Message) : Prop where
  descending : items.Pairwise (fun a b => b.messageId < a.messageId)
  live : forall id, id ∈ items.map Message.messageId <-> IsLive s c id

def liveIds (rows : List (UUID × Row)) : List UUID :=
  (rows.filter (fun entry => entry.2.status ≠ .deleted)).map Prod.fst

/-- No live row is in a later block of `limit` rows than a deleted one. -/
def DeletionsLast (limit : Nat) (rows : List (UUID × Row)) : Prop :=
  forall p q a b, rows[p]? = some a -> rows[q]? = some b -> a.2.status = .deleted ->
    b.2.status ≠ .deleted -> q / limit ≤ p / limit

instance (limit : Nat) (rows : List (UUID × Row)) : Decidable (DeletionsLast limit rows) :=
  decidable_of_iff
    (forall p q : Fin rows.length, rows[p].2.status = .deleted ->
      rows[q].2.status ≠ .deleted -> q.val / limit ≤ p.val / limit) (by
    constructor
    · intro h p q a b ha hb
      rcases List.getElem?_eq_some_iff.mp ha with ⟨hp, rfl⟩
      rcases List.getElem?_eq_some_iff.mp hb with ⟨hq, rfl⟩
      exact h ⟨p, hp⟩ ⟨q, hq⟩
    · intro h p q
      exact h p q _ _ (List.getElem?_eq_getElem p.isLt) (List.getElem?_eq_getElem q.isLt))

/--
Without a cached list the blocks of the partition decide. A cached first page has the live
ids down to its last one, and behind it the blocks of the rest decide; if it is short, it
has all live ids.
-/
def PagesComplete (svc : MessageService) (s : Store) (c : UUID) (limit : Nat) : Prop :=
  let rows := (s.messages c).rows
  match svc.servedPage s c limit with
  | none => DeletionsLast limit rows
  | some page =>
      let ids := page.map Message.messageId
      if page.length = limit then
        forall k, ids.getLast? = some k ->
          ids = (liveIds rows).filter (fun id => k ≤ id) ∧
            DeletionsLast limit (rows.filter (fun entry => entry.1 < k))
      else ids = liveIds rows

/-!
# Rows and pages
-/

def messageListing (c : UUID) : Listing (UUID × Row) Message UUID where
  key := Prod.fst
  entry := MessageRepository.liveMessage c
  entryKey := Message.messageId
  keeps := by
    intro entry msg h
    rcases Option.map_eq_some_iff.mp h with ⟨status, _, rfl⟩
    rfl

section Rows

variable {c : UUID} {limit : Nat} {rows : List (UUID × Row)}

theorem entry_eq_none_iff (entry : UUID × Row) :
    (messageListing c).entry entry = none <-> entry.2.status = .deleted := by
  show (entry.2.status.message?.map _) = none <-> _
  rw [Option.map_eq_none_iff]
  cases entry.2.status with
  | pending => simp [RowStatus.message?]
  | sent => simp [RowStatus.message?]
  | failed => simp [RowStatus.message?]
  | deleted => simp [RowStatus.message?]

theorem deletionsLast_iff :
    DeletionsLast limit rows <-> (messageListing c).InBlocks limit rows := by
  unfold DeletionsLast Listing.InBlocks
  simp only [ne_eq, entry_eq_none_iff]

theorem map_messageId_entries (c : UUID) (rows : List (UUID × Row)) :
    (rows.filterMap (messageListing c).entry).map Message.messageId = liveIds rows := by
  unfold liveIds
  induction rows with
  | nil => rfl
  | cons entry rest ih =>
      by_cases hdeleted : entry.2.status = .deleted
      · rw [List.filterMap_cons_none ((entry_eq_none_iff entry).mpr hdeleted),
          List.filter_cons_of_neg (by simp [hdeleted]), ih]
      · cases hentry : (messageListing c).entry entry with
        | none => exact absurd ((entry_eq_none_iff entry).mp hentry) hdeleted
        | some msg =>
            rw [List.filterMap_cons_some hentry, List.filter_cons_of_pos (by simp [hdeleted]),
              List.map_cons, List.map_cons, ih]
            exact congrArg (fun id => id :: _) ((messageListing c).keeps entry msg hentry)

theorem mem_liveIds {s : Store} {id : UUID} :
    id ∈ liveIds (s.messages c).rows <-> IsLive s c id := by
  unfold liveIds IsLive
  constructor
  · intro h
    rcases List.mem_map.mp h with ⟨entry, hentry, rfl⟩
    rcases List.mem_filter.mp hentry with ⟨hmem, hlive⟩
    exact ⟨entry.2, row_of_mem_rows hmem, by simpa using hlive⟩
  · intro h
    rcases h with ⟨row, hrow, hlive⟩
    apply List.mem_map.mpr
    exact ⟨(id, row), List.mem_filter.mpr ⟨mem_rows_of_row hrow, by simpa using hlive⟩, rfl⟩

theorem liveIds_sorted (hsorted : rows.Pairwise (fun a b => b.1 < a.1)) :
    (liveIds rows).Pairwise (fun a b => b < a) := by
  unfold liveIds
  rw [List.pairwise_map]
  exact hsorted.sublist List.filter_sublist

theorem liveIds_below (k : UUID) (rows : List (UUID × Row)) :
    liveIds (rows.filter (fun entry => entry.1 < k)) =
      (liveIds rows).filter (fun id => id < k) := by
  unfold liveIds
  rw [List.filter_map, List.filter_comm]
  rfl

theorem showsEach_iff {s : Store} {items : List Message} :
    ShowsEach s c items <->
      items.map Message.messageId = liveIds (s.messages c).rows := by
  have hsorted := liveIds_sorted (s.messages c).sorted
  constructor
  · intro h
    apply ClusteredTable.eq_of_mem_iff id (List.pairwise_map.mpr h.descending) hsorted
    intro k
    rw [h.live, mem_liveIds]
  · intro h
    constructor
    · rw [← h] at hsorted
      exact List.pairwise_map.mp hsorted
    · intro k
      rw [h, mem_liveIds]

theorem append_eq_iff {front rest ids : List UUID} {k : UUID}
    (hsorted : ids.Pairwise (fun a b => b < a)) (hlast : front.getLast? = some k)
    (hrest : forall a, a ∈ rest -> a < k) :
    front ++ rest = ids <->
      front = ids.filter (fun a => k ≤ a) ∧ rest = ids.filter (fun a => a < k) := by
  constructor
  · intro h
    subst h
    rcases List.eq_nil_or_concat front with hnil | ⟨before, last, hfront⟩
    · rw [hnil] at hlast
      cases hlast
    · rw [List.concat_eq_append] at hfront
      rw [hfront, List.getLast?_concat] at hlast
      cases hlast
      have hfrontLe : forall a, a ∈ front -> k ≤ a := by
        intro a ha
        rw [hfront] at ha
        rcases List.mem_append.mp ha with hbefore | hk
        · have hpair := (List.pairwise_append.mp hsorted).left
          rw [hfront] at hpair
          exact le_of_lt ((List.pairwise_append.mp hpair).right.right a hbefore k (by simp))
        · rw [List.mem_singleton.mp hk]
      constructor
      · rw [List.filter_append, List.filter_eq_self.mpr (by simpa using hfrontLe),
          List.filter_eq_nil_iff.mpr (by simpa using hrest), List.append_nil]
      · rw [List.filter_append, List.filter_eq_nil_iff.mpr (by simpa using hfrontLe),
          List.filter_eq_self.mpr (by simpa using hrest), List.nil_append]
  · intro h
    rcases h with ⟨rfl, rfl⟩
    clear hlast hrest
    induction ids with
    | nil => rfl
    | cons a rest ih =>
        rcases List.pairwise_cons.mp hsorted with ⟨hhead, htail⟩
        by_cases hle : k ≤ a
        · rw [List.filter_cons_of_pos (by simpa using hle),
            List.filter_cons_of_neg (by simpa using hle), List.cons_append, ih htail]
        · have hnone : (a :: rest).filter (fun b => k ≤ b) = [] := by
            rw [List.filter_eq_nil_iff]
            intro b hb
            rcases List.mem_cons.mp hb with rfl | hin
            · simpa using hle
            · have hlt := lt_trans (hhead b hin) (not_le.mp hle)
              simpa using hlt
          have hall : (a :: rest).filter (fun b => b < k) = a :: rest := by
            rw [List.filter_eq_self]
            intro b hb
            rcases List.mem_cons.mp hb with rfl | hin
            · simpa using hle
            · have hlt := lt_trans (hhead b hin) (not_le.mp hle)
              simpa using hlt
          rw [hnone, hall, List.nil_append]

/-- A scan of sorted rows has all live ids exactly if their deletions come last. -/
theorem scan_ids_iff {items : List Message} (hlimit : 0 < limit)
    (hsorted : rows.Pairwise (fun a b => b.1 < a.1))
    (h : (messageListing c).Scan limit rows items) :
    items.map Message.messageId = liveIds rows <-> DeletionsLast limit rows := by
  have hdesc : (messageListing c).Descending rows := hsorted.imp (fun h => le_of_lt h)
  rw [deletionsLast_iff (c := c), ← Listing.covers_iff_inBlocks hlimit hsorted,
    ← Listing.scan_complete_iff hdesc h, ← map_messageId_entries c rows]
  constructor
  · intro heq
    apply (Listing.scan_sublist hdesc h).eq_of_length
    have hlength := congrArg List.length heq
    rw [List.length_map, List.length_map] at hlength
    exact hlength
  · intro heq
    rw [heq]

theorem scan_ids_below {items : List Message} {k : UUID}
    (hsorted : rows.Pairwise (fun a b => b.1 < a.1))
    (h : (messageListing c).Scan limit ((messageListing c).below k rows) items) :
    forall id, id ∈ items.map Message.messageId -> id < k := by
  have hdesc : (messageListing c).Descending rows := hsorted.imp (fun h => le_of_lt h)
  intro id hid
  have hsub := (Listing.scan_sublist (Listing.descending_below hdesc k) h).map
    Message.messageId
  rw [map_messageId_entries] at hsub
  have hmem := hsub.subset hid
  unfold Listing.below at hmem
  have hbelow := liveIds_below k rows
  rw [show (fun a => decide ((messageListing c).key a < k)) =
    (fun entry : UUID × Row => decide (entry.1 < k)) from rfl, hbelow] at hmem
  simpa using (List.mem_filter.mp hmem).right

end Rows

/-!
# Requests
-/

section Requests

variable {svc : MessageService} {s : Store} {c : UUID} {limit : Nat}

def cursorOf (limit : Nat) (items : List Message) : Option UUID :=
  if items.length = limit then items.getLast?.map Message.messageId else none

theorem wp_listResponse {items : List Message}
    {Q : MessagesApi.MessageListResponse -> Store -> Prop} {E : PyExc -> Store -> Prop}
    (hlimit : 0 < limit)
    (hQ : forall page : MessagesApi.MessageListResponse, page.items = items ->
      MessageListResponse.next page = cursorOf limit items -> Q page s) :
    Prog.wp storageMachine noFault (MessagesApi.listResponse items limit) Q E s := by
  unfold MessagesApi.listResponse
  unfold cursorOf at hQ
  split
  · rename_i hfull
    rw [if_pos hfull] at hQ
    cases hlast : items.getLast? with
    | none =>
        rw [List.getLast?_eq_none_iff.mp hlast] at hfull
        exact absurd hfull (Nat.ne_of_lt hlimit)
    | some lastItem =>
        rw [hlast] at hQ
        exact hQ _ rfl rfl
  · rename_i hshort
    rw [if_neg hshort] at hQ
    exact hQ _ rfl rfl

theorem wp_getMessageHistory_cursor (svc : MessageService) (s : Store) (c : UUID)
    (hlimit : 0 < limit) (k : UUID) :
    Prog.wp storageMachine noFault (MessagesApi.getMessageHistory svc c limit (some k))
      (fun page t => t = s ∧ AnswersPage (messageListing c) limit id
        ((messageListing c).below k (s.messages c).rows) page.items
        (MessageListResponse.next page))
      (fun _ _ => False) s := by
  unfold MessagesApi.getMessageHistory
  rw [Prog.wp_bind]
  apply wp_history_cursor
  apply wp_listResponse hlimit
  intro page hitems hnext
  refine ⟨rfl, hitems, ?_⟩
  rw [hnext, Option.map_id]
  rfl

theorem wp_getMessageHistory_start (svc : MessageService) (s : Store) (c : UUID)
    (hlimit : 0 < limit) :
    Prog.wp storageMachine noFault (MessagesApi.getMessageHistory svc c limit none)
      (fun page t => t.messages c = s.messages c ∧ page.items = (svc.startOf s c limit).1 ∧
        MessageListResponse.next page = cursorOf limit (svc.startOf s c limit).1)
      (fun _ _ => False) s := by
  unfold MessagesApi.getMessageHistory
  rw [Prog.wp_bind]
  apply wp_history_start
  apply wp_listResponse hlimit
  intro page hitems hnext
  exact ⟨by rw [messages_startOf], hitems, hnext⟩

theorem pages_messages (svc : MessageService) (s : Store) (c : UUID) (hlimit : 0 < limit) :
    Pages (messageListing c) limit id (s.messages c).rows (AsksMessages svc c limit)
      (fun t u => u.messages c = t.messages c) (fun t => t.messages c = s.messages c) := by
  constructor
  · intro t k items next u ht hask
    rcases hask with ⟨page, hfin, rfl, rfl⟩
    have hend := Prog.wp_finishes (wp_getMessageHistory_cursor svc t c hlimit k) hfin
    rcases hend with ⟨rfl, hanswer⟩
    rw [ht] at hanswer
    exact ⟨hanswer, ht⟩
  · intro t k _
    rcases exists_ok (wp_getMessageHistory_cursor svc t c hlimit k)
      with ⟨page, u, hfin, _⟩
    exact ⟨_, _, u, page, hfin, rfl, rfl⟩
  · intro t u ht hsame
    rw [hsame, ht]
  · intro t
    rfl

/-!
# Scans
-/

theorem scan_start (hlimit : 0 < limit) {items : List Message}
    (h : MessageScan svc c limit s none items) :
    let first := (svc.startOf s c limit).1
    match cursorOf limit first with
    | none => items = first
    | some k => exists rest, items = first ++ rest ∧
        (messageListing c).Scan limit
          ((messageListing c).below k (s.messages c).rows) rest := by
  cases h with
  | last hask =>
      rcases hask with ⟨page, hfin, rfl, hnext⟩
      have hend := Prog.wp_finishes (wp_getMessageHistory_start svc s c hlimit) hfin
      rcases hend with ⟨_, hitems, hcursor⟩
      rw [hnext] at hcursor
      dsimp only
      rw [← hcursor]
      exact hitems
  | more next hask hidle hrest =>
      rcases hask with ⟨page, hfin, rfl, hnext⟩
      have hend := Prog.wp_finishes (wp_getMessageHistory_start svc s c hlimit) hfin
      rcases hend with ⟨hsame, hitems, hcursor⟩
      rw [hnext] at hcursor
      dsimp only
      rw [← hcursor, ← hitems]
      refine ⟨_, rfl, ?_⟩
      exact scan_of_follows hlimit (pages_messages svc s c hlimit) (hidle.trans hsame) hrest

theorem exists_messageScan (hlimit : 0 < limit) :
    exists items, MessageScan svc c limit s none items := by
  rcases exists_ok (wp_getMessageHistory_start svc s c hlimit) with
    ⟨page, t, hfin, hsame, _, _⟩
  cases hnext : MessageListResponse.next page with
  | none => exact ⟨page.items, .last ⟨page, hfin, rfl, hnext⟩⟩
  | some k =>
      rcases exists_follows (pages_messages svc s c hlimit) hsame k
        with ⟨rest, hrest⟩
      exact ⟨_, .more k ⟨page, hfin, rfl, hnext⟩ rfl hrest⟩

theorem scan_of_uncached (hlimit : 0 < limit) {items : List Message}
    (hserved : svc.servedPage s c limit = none)
    (h : MessageScan svc c limit s none items) :
    (messageListing c).Scan limit (s.messages c).rows items := by
  have hstart := scan_start hlimit h
  have hfirst : (svc.startOf s c limit).1 =
      (messageListing c).page limit (s.messages c).rows := by
    unfold MessageService.startOf
    rw [hserved]
    rfl
  dsimp only at hstart
  rw [hfirst] at hstart
  unfold cursorOf at hstart
  split at hstart
  · rename_i hnone
    rw [hstart]
    apply Listing.Scan.last
    intro hfull
    rw [if_pos hfull, Option.map_eq_none_iff, List.getLast?_eq_none_iff] at hnone
    rw [hnone] at hfull
    exact absurd hfull (Nat.ne_of_lt hlimit)
  · rename_i k hsome
    rcases hstart with ⟨rest, rfl, hrest⟩
    split at hsome
    · rename_i hfull
      rcases Option.map_eq_some_iff.mp hsome with ⟨last, hlast, rfl⟩
      exact .more last hfull hlast hrest
    · cases hsome

/--
For every partition and every page size the scan comes to its end, and it shows each live
message once, the newest first, exactly when no live row is in a later window than a
deleted one and a cached first page does not disagree.
-/
theorem message_pages_iff (svc : MessageService) (s : Store) (c : UUID) {limit : Nat}
    (hlimit : 0 < limit) :
    (exists items, MessageScan svc c limit s none items) ∧
      forall items, MessageScan svc c limit s none items ->
        (ShowsEach s c items <-> PagesComplete svc s c limit) := by
  refine ⟨exists_messageScan hlimit, ?_⟩
  intro items h
  have hsorted := (s.messages c).sorted
  rw [showsEach_iff]
  unfold PagesComplete
  dsimp only
  cases hserved : svc.servedPage s c limit with
  | none => exact scan_ids_iff hlimit hsorted (scan_of_uncached hlimit hserved h)
  | some page =>
      have hstart := scan_start hlimit h
      have hfirst : (svc.startOf s c limit).1 = page := by
        unfold MessageService.startOf
        rw [hserved]
      dsimp only at hstart
      rw [hfirst] at hstart
      unfold cursorOf at hstart
      dsimp only
      split
      · rename_i hfull
        rw [if_pos hfull] at hstart
        cases hlast : page.getLast? with
        | none =>
            rw [List.getLast?_eq_none_iff.mp hlast] at hfull
            exact absurd hfull (Nat.ne_of_lt hlimit)
        | some last =>
            rw [hlast] at hstart
            rcases hstart with ⟨rest, rfl, hrest⟩
            have hids : (page.map Message.messageId).getLast? = some last.messageId := by
              rw [List.getLast?_map, hlast]
              rfl
            have hbelow := hsorted.sublist
              (List.filter_sublist (p := fun entry => entry.1 < last.messageId))
            rw [List.map_append,
              append_eq_iff (liveIds_sorted hsorted) hids (scan_ids_below hsorted hrest),
              ← liveIds_below, hids]
            rw [scan_ids_iff hlimit hbelow hrest]
            constructor
            · intro hboth k hk
              cases hk
              exact hboth
            · intro hall
              exact hall _ rfl
      · rename_i hshort
        rw [if_neg hshort] at hstart
        rw [hstart]

end Requests

/-! Two questions and their placeholders, of which one message is deleted. -/

def firstAsked : SendArgs :=
  .plain (.ofInt 1) (uuidv7 (.at 1000)) (text "What is a page?")

def secondAsked : SendArgs :=
  .plain (.ofInt 1) (uuidv7 (.at 2000)) (text "And a cursor?")

def askedTwice : Store :=
  Call.after .single (.send (.at 2001) secondAsked)
    (Call.after .single (.send (.at 1001) firstAsked) .blank)

def oldestDeleted : Store :=
  Call.after .single (.delete (.ofInt 1) firstAsked.messageId) askedTwice

def newestDeleted : Store :=
  Call.after .single
    (.delete (.ofInt 1) (uuidv7After secondAsked.messageId (Readings.at 2001).response))
    askedTwice

theorem oldestDeleted_pages :
    exists items, MessageScan Deployment.single.api (.ofInt 1) 2 oldestDeleted none items ∧
      ShowsEach oldestDeleted (.ofInt 1) items := by
  have hpages := message_pages_iff Deployment.single.api oldestDeleted (.ofInt 1)
    (by decide : 0 < 2)
  have hserved : Deployment.single.api.servedPage oldestDeleted (.ofInt 1) 2 = none := by
    decide
  have hlast : DeletionsLast 2 (oldestDeleted.messages (.ofInt 1)).rows := by
    decide
  rcases hpages.left with ⟨items, hscan⟩
  refine ⟨items, hscan, (hpages.right items hscan).mpr ?_⟩
  unfold PagesComplete
  rw [hserved]
  exact hlast

/-- The first page has one message and no cursor, and the first question is not shown. -/
theorem newestDeleted_pages :
    ¬(forall items, MessageScan Deployment.single.api (.ofInt 1) 2 newestDeleted none items ->
      ShowsEach newestDeleted (.ofInt 1) items) := by
  intro hall
  have hstart : Prog.wp storageMachine noFault
      (MessagesApi.getMessageHistory Deployment.single.api (.ofInt 1) 2 none) _ _
      newestDeleted := wp_getMessageHistory_start _ _ _ (by decide)
  rcases exists_ok hstart with ⟨page, t, hfin, _, hitems, hnext⟩
  have hcursor : cursorOf 2 (Deployment.single.api.startOf newestDeleted (.ofInt 1) 2).1 =
      none := by
    decide
  have hshows := hall page.items (.last ⟨page, hfin, rfl, by rw [hnext, hcursor]⟩)
  rw [showsEach_iff, hitems] at hshows
  have hdiffer : ((Deployment.single.api.startOf newestDeleted (.ofInt 1) 2).1).map
      Message.messageId ≠ liveIds (newestDeleted.messages (.ofInt 1)).rows := by
    decide
  exact hdiffer hshows

end ConversationService
