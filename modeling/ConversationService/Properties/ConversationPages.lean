import ConversationService.Library.KeysetScan
import ConversationService.Effects.Tables
import ConversationService.Effects.Replies
import ConversationService.Model.ConversationsApi

/-!
# Paging through the conversations of a user

A page continues strictly below the time of the last conversation of the page before it.
So conversations of the same millisecond are lost when a page ends between them, and as
with messages, a deleted row makes the page of its window the last one.
-/

namespace ConversationService

open Python ClusteredTable KeysetScan Programs

/-- What a client follows; `has_more` says whether there is a cursor to follow. -/
def ConversationListResponse.next (page : ConversationListResponse) :
    Option ConversationCursor :=
  if page.hasMore then page.nextCursor else none

/-- A request for a page of conversations and its answer. -/
def AsksConversations (user : UUID) (limit : Nat) (s : Store)
    (cursor : Option ConversationCursor) (items : List Conversation)
    (next : Option ConversationCursor) (t : Store) : Prop :=
  exists page, Prog.Finishes storageMachine noFault
      (ConversationsApi.listConversations user limit cursor) s (.ok page) t ∧
    page.items = items ∧ page.next = next

/-- The conversations that a client collects while the partition does not change. -/
def ConversationScan (user : UUID) (limit : Nat) :
    Store -> Option ConversationCursor -> List Conversation -> Prop :=
  Follows (AsksConversations user limit) (fun s t => t.catalog user = s.catalog user)

/-- The conversation of a catalogue row that is not deleted. -/
def IsListed (s : Store) (user : UUID) (conv : Conversation) : Prop :=
  exists entry, entry ∈ (s.catalog user).rows ∧
    ConversationRepository.listedConversation user entry = some conv

def updatedMicros (conv : Conversation) : Int :=
  (conv.updatedAt.map Datetime.micros).getD 0

/-- Every row that is not deleted, once, the latest updated first. -/
structure ListsEach (s : Store) (user : UUID) (items : List Conversation) : Prop where
  ordered : items.Pairwise (fun a b => updatedMicros b ≤ updatedMicros a)
  once : items.Nodup
  listed : forall conv, conv ∈ items <-> IsListed s user conv

/-- The same by the ids of the conversations. -/
structure ListsEachId (s : Store) (user : UUID) (items : List Conversation) : Prop where
  ordered : items.Pairwise (fun a b => updatedMicros b ≤ updatedMicros a)
  once : (items.map Conversation.conversationId).Nodup
  listed : forall c, c ∈ items.map Conversation.conversationId <->
    exists conv, IsListed s user conv ∧ conv.conversationId = c

/-- No conversation has two rows that are not deleted. -/
def OneRowEach (s : Store) (user : UUID) : Prop :=
  forall conv conv', IsListed s user conv -> IsListed s user conv' ->
    conv.conversationId = conv'.conversationId -> conv = conv'

/-- The keys of the user's rows are keys that a statement has written. -/
def KeysWritten (s : Store) (user : UUID) : Prop :=
  forall k entry, (s.catalog user).get k = some entry ->
    exists updatedAt, k = Store.catalogKey updatedAt (keyConversation k)

def conversationListing (user : UUID) : Listing (CatalogKey × CatalogRow) Conversation Int where
  key entry := (ofLex entry.1).1
  entry := ConversationRepository.listedConversation user
  entryKey := updatedMicros
  keeps := by
    intro entry conv h
    unfold ConversationRepository.listedConversation at h
    split at h
    · cases h
    · cases h
      rfl

/--
Behind every full window no row of its last millisecond is live, and behind the first
window that is not full no row is.
-/
def CatalogCovered (s : Store) (user : UUID) (limit : Nat) : Prop :=
  (conversationListing user).Covers limit (s.catalog user).rows

/-!
# Keys
-/

theorem keysWritten_blank (user : UUID) : KeysWritten .blank user := by
  intro k entry h
  cases h

theorem keysWritten_move {s t : Store} {user user' c : UUID} {old new : Datetime}
    {row : CatalogRow} (hs : KeysWritten s user')
    (hcatalog : t.catalog = (s.moveCatalog user c old new row).catalog) :
    KeysWritten t user' := by
  intro k entry h
  rw [hcatalog, catalog_moveCatalog] at h
  split at h
  · rename_i huser
    rw [huser] at hs
    split at h
    · cases h
    · split at h
      · rename_i hk
        exact ⟨new, by rw [hk, keyConversation_catalogKey]⟩
      · exact hs k entry h
  · exact hs k entry h

theorem keysWritten_exec {s : Store} {user' : UUID} (hs : KeysWritten s user') (o : Op) :
    KeysWritten (o.exec s).2 user' := by
  by_cases htarget : o.tableTarget = none
  · intro k entry h
    rw [(exec_tables_of_none htarget s).right] at h
    exact hs k entry h
  · cases o with
    | batchCreateConversation c user title now status parent branch bucket eventId event =>
        intro k entry h
        have hget : (((s.setConversationRow c _).setCatalog user _).catalog user').get k =
          some entry := h
        rw [catalog_setCatalog] at hget
        split at hget
        · rename_i huser
          rw [huser] at hs
          rw [Partition.get_upsert] at hget
          split at hget
          · rename_i hk
            exact ⟨now, by rw [hk, keyConversation_catalogKey]⟩
          · exact hs k entry hget
        · exact hs k entry hget
    | batchUpdateConversation c user old new title createdAt status parent bucket eventId
        event => exact keysWritten_move hs rfl
    | batchUpdateTitle c user old new title createdAt status parent =>
        exact keysWritten_move hs rfl
    | batchHardDelete c user updatedAt =>
        intro k entry h
        have hget : ((s.setCatalog user _).catalog user').get k = some entry := h
        rw [catalog_setCatalog] at hget
        split at hget
        · rename_i huser
          rw [huser] at hs
          rw [Partition.get_erase] at hget
          split at hget
          · cases hget
          · exact hs k entry hget
        · exact hs k entry hget
    | _ => exact absurd rfl htarget

theorem keysWritten_visits {alpha : Type} {mayFail : Op -> Prop} {p : Py alpha}
    {s t : Store} {user : UUID} (hs : KeysWritten s user)
    (h : Prog.Visits storageMachine mayFail p s t) : KeysWritten t user := by
  rcases h with ⟨q, hsteps⟩
  have hall : forall d, Prog.Steps storageMachine mayFail (p, s) d ->
      KeysWritten d.2 user := by
    intro d hd
    induction hd with
    | refl => exact hs
    | tail _ hstep ih =>
        cases hstep with
        | done o next => exact keysWritten_exec ih o
        | failed o next _ _ => exact ih
  exact hall (q, t) hsteps

section Rows

variable {s : Store} {user : UUID} {limit : Nat}

theorem stored_of_listed (hs : KeysWritten s user) {conv : Conversation}
    (h : IsListed s user conv) :
    exists updatedAt, conv.updatedAt = some updatedAt ∧
      updatedAt.stored.micros = updatedMicros conv := by
  rcases h with ⟨entry, hentry, hlisted⟩
  have hget : (s.catalog user).get entry.1 = some entry.2 :=
    (Partition.get_eq_some_iff _ _ _).mpr hentry
  rcases hs entry.1 entry.2 hget with ⟨written, hkey⟩
  unfold ConversationRepository.listedConversation at hlisted
  split at hlisted
  · cases hlisted
  · cases hlisted
    refine ⟨_, rfl, ?_⟩
    have hmicros : (ofLex entry.1).1 = written.stored.micros := by
      rw [hkey]
      rfl
    show (Datetime.stored ⟨(ofLex entry.1).1, false⟩).micros = (ofLex entry.1).1
    rw [hmicros]
    exact congrArg Datetime.micros (stored_stored written)

theorem descending_catalog (s : Store) (user : UUID) :
    (conversationListing user).Descending (s.catalog user).rows := by
  apply (s.catalog user).sorted.imp
  intro a b hlt
  rcases Prod.Lex.lt_iff.mp hlt with hmicros | ⟨hmicros, _⟩
  · exact le_of_lt hmicros
  · exact le_of_eq hmicros

theorem mem_entries {conv : Conversation} :
    conv ∈ (s.catalog user).rows.filterMap (conversationListing user).entry <->
      IsListed s user conv := by
  rw [List.mem_filterMap]
  rfl

theorem key_of_listed {entry : CatalogKey × CatalogRow} {conv : Conversation}
    (h : ConversationRepository.listedConversation user entry = some conv) :
    entry.1 = toLex (updatedMicros conv, OrderDual.toDual conv.conversationId) := by
  unfold ConversationRepository.listedConversation at h
  split at h
  · cases h
  · cases h
    rfl

theorem nodup_entries (s : Store) (user : UUID) :
    ((s.catalog user).rows.filterMap (conversationListing user).entry).Nodup := by
  apply (s.catalog user).sorted.filterMap
  intro a b hlt conv hconv conv' hconv' heq
  subst heq
  rw [key_of_listed hconv, key_of_listed hconv'] at hlt
  exact lt_irrefl _ hlt

theorem ordered_entries {items : List Conversation}
    (hsub : List.Sublist items
      ((s.catalog user).rows.filterMap (conversationListing user).entry)) :
    items.Pairwise (fun a b => updatedMicros b ≤ updatedMicros a) := by
  apply List.Pairwise.sublist hsub
  apply (descending_catalog s user).filterMap
  intro a b hle conv hconv conv' hconv'
  have hmicros := (conversationListing user).keeps a conv hconv
  have hmicros' := (conversationListing user).keeps b conv' hconv'
  rw [← hmicros, ← hmicros'] at hle
  exact hle

theorem listsEach_iff {items : List Conversation}
    (hsub : List.Sublist items
      ((s.catalog user).rows.filterMap (conversationListing user).entry)) :
    ListsEach s user items <->
      items = (s.catalog user).rows.filterMap (conversationListing user).entry := by
  constructor
  · intro h
    apply hsub.eq_of_length
    apply List.Perm.length_eq
    apply (List.perm_ext_iff_of_nodup h.once (nodup_entries s user)).mpr
    intro conv
    rw [h.listed, mem_entries]
  · intro h
    refine ⟨ordered_entries hsub, ?_, ?_⟩
    · rw [h]
      exact nodup_entries s user
    · intro conv
      rw [h, mem_entries]

theorem listsEachId_iff (hone : OneRowEach s user) {items : List Conversation}
    (hsub : List.Sublist items
      ((s.catalog user).rows.filterMap (conversationListing user).entry)) :
    ListsEachId s user items <-> ListsEach s user items := by
  have hlisted : forall conv, conv ∈ items -> IsListed s user conv :=
    fun conv h => mem_entries.mp (hsub.subset h)
  constructor
  · intro h
    refine ⟨h.ordered, h.once.of_map _, ?_⟩
    intro conv
    refine ⟨hlisted conv, ?_⟩
    intro hconv
    rcases List.mem_map.mp ((h.listed _).mpr ⟨conv, hconv, rfl⟩) with ⟨conv', hmem, hid⟩
    rw [← hone conv' conv (hlisted conv' hmem) hconv hid]
    exact hmem
  · intro h
    refine ⟨h.ordered, ?_, ?_⟩
    · apply List.Nodup.map_on _ h.once
      intro conv hconv conv' hconv' hid
      exact hone conv conv' (hlisted conv hconv) (hlisted conv' hconv') hid
    · intro c
      rw [List.mem_map]
      constructor
      · intro hmem
        rcases hmem with ⟨conv, hconv, hid⟩
        exact ⟨conv, hlisted conv hconv, hid⟩
      · intro hmem
        rcases hmem with ⟨conv, hconv, hid⟩
        exact ⟨conv, (h.listed conv).mpr hconv, hid⟩

end Rows

/-!
# Requests
-/

section Requests

variable {s : Store} {user : UUID} {limit : Nat}

def ConversationCursor.boundary (cursor : ConversationCursor) : Int :=
  cursor.updatedAt.stored.micros

def requested (s : Store) (user : UUID) (cursor : Option ConversationCursor) :
    List (CatalogKey × CatalogRow) :=
  match cursor with
  | none => (s.catalog user).rows
  | some cursor => (conversationListing user).below cursor.boundary (s.catalog user).rows

theorem requested_sublist (s : Store) (user : UUID) (cursor : Option ConversationCursor) :
    List.Sublist (requested s user cursor) (s.catalog user).rows := by
  cases cursor with
  | none => exact List.Sublist.refl _
  | some cursor => exact List.filter_sublist

theorem wp_listConversations (hs : KeysWritten s user) (hlimit : 0 < limit)
    (cursor : Option ConversationCursor) :
    Prog.wp storageMachine noFault (ConversationsApi.listConversations user limit cursor)
      (fun page t => t = s ∧ AnswersPage (conversationListing user) limit
        ConversationCursor.boundary (requested s user cursor) page.items page.next)
      (fun _ _ => False) s := by
  unfold ConversationsApi.listConversations ConversationRepository.list
  rw [Prog.wp_bind, Prog.wp_bind, wp_perform]
  refine ⟨?_, fun h => h.elim⟩
  rw [Prog.wp_pure]
  have hitems : (((Op.selectCatalog user limit
      (cursor.map ConversationCursor.updatedAt)).exec s).1).filterMap
        (ConversationRepository.listedConversation user) =
      (conversationListing user).page limit (requested s user cursor) := by
    cases cursor with
    | none => rfl
    | some cursor => rfl
  rw [hitems]
  unfold ConversationsApi.listResponse
  split
  · rename_i hfull
    cases hlast : ((conversationListing user).page limit
      (requested s user cursor)).getLast? with
    | none =>
        rw [List.getLast?_eq_none_iff.mp hlast] at hfull
        exact absurd hfull (Nat.ne_of_lt hlimit)
    | some conv =>
        have hmem : conv ∈ (s.catalog user).rows.filterMap
            (conversationListing user).entry :=
          (((List.take_sublist _ _).trans (requested_sublist s user cursor)).filterMap
            _).subset (List.mem_of_getLast? hlast)
        rcases stored_of_listed hs (mem_entries.mp hmem) with ⟨updatedAt, hupdated, hmicros⟩
        dsimp only
        rw [hupdated]
        refine ⟨rfl, rfl, ?_⟩
        unfold Listing.nextKey
        rw [if_pos hfull, hlast]
        exact congrArg some hmicros
  · rename_i hshort
    refine ⟨rfl, rfl, ?_⟩
    unfold Listing.nextKey
    rw [if_neg hshort]
    rfl

theorem pages_conversations (hs : KeysWritten s user) (hlimit : 0 < limit) :
    Pages (conversationListing user) limit ConversationCursor.boundary
      (s.catalog user).rows (AsksConversations user limit)
      (fun t u => u.catalog user = t.catalog user)
      (fun t => t.catalog user = s.catalog user) := by
  have hwritten : forall t, t.catalog user = s.catalog user -> KeysWritten t user := by
    intro t ht
    unfold KeysWritten
    rw [ht]
    exact hs
  constructor
  · intro t k items next u ht hask
    rcases hask with ⟨page, hfin, rfl, rfl⟩
    have hend := Prog.wp_finishes (wp_listConversations (hwritten t ht) hlimit (some k)) hfin
    rcases hend with ⟨rfl, hanswer⟩
    unfold requested at hanswer
    rw [ht] at hanswer
    exact ⟨hanswer, ht⟩
  · intro t k ht
    rcases exists_ok (wp_listConversations (hwritten t ht) hlimit (some k)) with
      ⟨page, u, hfin, _⟩
    exact ⟨_, _, u, page, hfin, rfl, rfl⟩
  · intro t u ht hsame
    rw [hsame, ht]
  · intro t
    rfl

theorem scan_of_conversationScan (hs : KeysWritten s user) (hlimit : 0 < limit)
    {items : List Conversation} (h : ConversationScan user limit s none items) :
    (conversationListing user).Scan limit (s.catalog user).rows items := by
  cases h with
  | last hask =>
      rcases hask with ⟨page, hfin, rfl, hnext⟩
      have hend := Prog.wp_finishes (wp_listConversations hs hlimit none) hfin
      rcases hend with ⟨_, hanswer⟩
      rw [hnext] at hanswer
      rw [hanswer.items]
      exact .last (hanswer.short hlimit)
  | more next hask hidle hrest =>
      rcases hask with ⟨page, hfin, rfl, hnext⟩
      have hend := Prog.wp_finishes (wp_listConversations hs hlimit none) hfin
      rcases hend with ⟨rfl, hanswer⟩
      rw [hnext] at hanswer
      rcases hanswer.full with ⟨hfull, b, hb, hkey⟩
      have hscan := scan_of_follows hlimit (pages_conversations hs hlimit) hidle hrest
      rw [hkey] at hscan
      rw [hanswer.items]
      exact .more b hfull hb hscan

theorem exists_conversationScan (hs : KeysWritten s user) (hlimit : 0 < limit) :
    exists items, ConversationScan user limit s none items := by
  rcases exists_ok (wp_listConversations hs hlimit none) with ⟨page, t, hfin, rfl, _⟩
  cases hnext : page.next with
  | none => exact ⟨page.items, .last ⟨page, hfin, rfl, hnext⟩⟩
  | some k =>
      rcases exists_follows (pages_conversations hs hlimit) rfl k with ⟨rest, hrest⟩
      exact ⟨_, .more k ⟨page, hfin, rfl, hnext⟩ rfl hrest⟩

/--
For every partition and every page size the scan comes to its end, and it shows every row
that is not deleted once, the latest updated first, exactly when its windows cover them.
The ids of the conversations say the same where none has two such rows.
-/
theorem conversation_pages_iff {s : Store} {user : UUID} {limit : Nat}
    (hs : KeysWritten s user) (hlimit : 0 < limit) :
    (exists items, ConversationScan user limit s none items) ∧
      forall items, ConversationScan user limit s none items ->
        (ListsEach s user items <-> CatalogCovered s user limit) ∧
        (OneRowEach s user ->
          (ListsEachId s user items <-> CatalogCovered s user limit)) := by
  refine ⟨exists_conversationScan hs hlimit, ?_⟩
  intro items h
  have hscan := scan_of_conversationScan hs hlimit h
  have hdesc := descending_catalog s user
  have hsub := Listing.scan_sublist hdesc hscan
  have hiff : ListsEach s user items <-> CatalogCovered s user limit := by
    rw [listsEach_iff hsub]
    exact Listing.scan_complete_iff hdesc hscan
  refine ⟨hiff, ?_⟩
  intro hone
  rw [listsEachId_iff hone hsub]
  exact hiff

end Requests

/-! Conversations of one user, by the times at which they were created. -/

def creation (conversationId : Nat) (micros : Int) : Py Conversation :=
  ConversationWrites.create none
    { conversationId := .ofInt conversationId
      eventId := .ofInt conversationId
      eventTime := ⟨micros, true⟩
      now := ⟨micros, true⟩ }
    (.ofInt 1) (text "New Chat") none none false

def afterCreation (conversationId : Nat) (micros : Int) (s : Store) : Store :=
  (Prog.run storageMachine (fun _ => false) (creation conversationId micros) s).2

theorem keysWritten_afterCreation {s : Store} {user : UUID} (hs : KeysWritten s user)
    (conversationId : Nat) (micros : Int) :
    KeysWritten (afterCreation conversationId micros s) user :=
  keysWritten_visits hs
    ⟨_, Prog.run_finishes storageMachine (fun _ => false) (creation conversationId micros) s⟩

def threeApart : Store :=
  afterCreation 13 3000000 (afterCreation 12 2000000 (afterCreation 11 1000000 .blank))

def twoAtOnce : Store :=
  afterCreation 12 1000700 (afterCreation 11 1000200 .blank)

theorem keysWritten_threeApart (user : UUID) : KeysWritten threeApart user :=
  keysWritten_afterCreation (keysWritten_afterCreation (keysWritten_afterCreation
    (keysWritten_blank user) _ _) _ _) _ _

theorem keysWritten_twoAtOnce (user : UUID) : KeysWritten twoAtOnce user :=
  keysWritten_afterCreation (keysWritten_afterCreation (keysWritten_blank user) _ _) _ _

/-- Rows of different milliseconds, none of them deleted, are covered by any windows. -/
theorem covered_of_apart {s : Store} {user : UUID} {limit : Nat} (hlimit : 0 < limit)
    (hstrict : (s.catalog user).rows.Pairwise (fun a b => (ofLex b.1).1 < (ofLex a.1).1))
    (hlisted : forall entry, entry ∈ (s.catalog user).rows ->
      entry.2.status ≠ .deleted) : CatalogCovered s user limit := by
  unfold CatalogCovered
  rw [Listing.covers_iff_inBlocks hlimit hstrict]
  intro p q a a' hp _ hnone _
  have hmem : a ∈ (s.catalog user).rows := List.mem_of_getElem? hp
  have hshown : ConversationRepository.listedConversation user a ≠ none := by
    unfold ConversationRepository.listedConversation
    rw [if_neg (hlisted a hmem)]
    simp
  exact absurd hnone hshown

theorem threeApart_pages :
    exists items, ConversationScan (.ofInt 1) 2 threeApart none items ∧
      ListsEach threeApart (.ofInt 1) items := by
  have hpages := conversation_pages_iff (keysWritten_threeApart (.ofInt 1))
    (by decide : 0 < 2)
  have hcovered : CatalogCovered threeApart (.ofInt 1) 2 :=
    covered_of_apart (by decide) (by decide) (by decide)
  rcases hpages.left with ⟨items, hscan⟩
  exact ⟨items, hscan, (hpages.right items hscan).left.mpr hcovered⟩

theorem length_of_twoAtOnce {items : List Conversation}
    (h : (conversationListing (.ofInt 1)).Scan 1 (twoAtOnce.catalog (.ofInt 1)).rows items) :
    items.length ≤ 1 := by
  have hwindow : ((conversationListing (.ofInt 1)).page 1
      (twoAtOnce.catalog (.ofInt 1)).rows).length ≤ 1 :=
    le_trans (List.length_filterMap_le _ _) (List.length_take_le _ _)
  cases h with
  | last _ => exact hwindow
  | more b _ hb hrest =>
      have hlast : ((conversationListing (.ofInt 1)).page 1
          (twoAtOnce.catalog (.ofInt 1)).rows).getLast?.map updatedMicros =
            some 1000000 := by
        decide
      have hbelow : (conversationListing (.ofInt 1)).below 1000000
          (twoAtOnce.catalog (.ofInt 1)).rows = [] := by
        rw [← List.isEmpty_iff]
        decide
      rw [hb] at hlast
      have hkey : (conversationListing (.ofInt 1)).entryKey b = 1000000 :=
        Option.some.inj hlast
      rw [hkey, hbelow] at hrest
      have hnil := Listing.scan_sublist List.Pairwise.nil hrest
      rw [List.filterMap_nil] at hnil
      rw [List.eq_nil_of_sublist_nil hnil, List.append_nil]
      exact hwindow

theorem eq_of_length_le_one {alpha : Type} {xs : List alpha} {a b : alpha}
    (h : xs.length ≤ 1) (ha : a ∈ xs) (hb : b ∈ xs) : a = b := by
  cases xs with
  | nil => cases ha
  | cons x rest =>
      have hrest : rest = [] := by
        apply List.eq_nil_of_length_eq_zero
        rw [List.length_cons] at h
        omega
      rw [hrest, List.mem_singleton] at ha hb
      rw [ha, hb]

theorem twoAtOnce_pages :
    ¬(forall items, ConversationScan (.ofInt 1) 1 twoAtOnce none items ->
      ListsEachId twoAtOnce (.ofInt 1) items) := by
  intro hall
  have hwritten := keysWritten_twoAtOnce (.ofInt 1)
  rcases exists_conversationScan hwritten (by decide : 0 < 1) with ⟨items, hitems⟩
  have hscan := scan_of_conversationScan hwritten (by decide) hitems
  have hlength := length_of_twoAtOnce hscan
  have hids : ((twoAtOnce.catalog (.ofInt 1)).rows.filterMap
      (conversationListing (.ofInt 1)).entry).map Conversation.conversationId =
        [.ofInt 11, .ofInt 12] := by
    decide
  have hboth : forall c, c ∈ [UUID.ofInt 11, UUID.ofInt 12] ->
      c ∈ items.map Conversation.conversationId := by
    intro c hc
    rw [← hids] at hc
    rcases List.mem_map.mp hc with ⟨conv, hconv, hid⟩
    exact ((hall items hitems).listed c).mpr ⟨conv, mem_entries.mp hconv, hid⟩
  have hfirst := hboth (.ofInt 11) (by simp)
  have hsecond := hboth (.ofInt 12) (by simp)
  rw [← List.length_map (f := Conversation.conversationId)] at hlength
  exact absurd (eq_of_length_le_one hlength hfirst hsecond) (by decide)

end ConversationService
