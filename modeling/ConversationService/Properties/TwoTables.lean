import ConversationService.Model.Replicas
import ConversationService.Effects.Tables

/-!
# Agreement of the two conversation tables

Every write of a conversation is a read followed by one batch on both tables. The
tables agree as long as every batch still finds the row that was read before it, and
moves the catalogue row to another millisecond. Two updates that read the same row
leave two catalogue rows.
-/

namespace ConversationService

open Python ClusteredTable Programs

/--
Every row of `conversations` has its row in the catalogue of its owner, and every
catalogue row is the one of an existing conversation.
-/
structure TablesAgree (s : Store) : Prop where
  listed : forall c row, s.conversations c = some row ->
    exists user updatedAt entry, row.IsAt user updatedAt ∧
      (s.catalog user).get (Store.catalogKey updatedAt c) = some entry ∧
      entry.title = row.title ∧ some entry.status = row.status ∧
      entry.parentConversationId = row.parentConversationId
  placed : forall c, s.CatalogueOf c

/-- What a listed conversation has in common with its row. -/
structure IsListingOf (user : UUID) (row : ConversationRow) (conv : Conversation) :
    Prop where
  userId : row.userId = some user
  updatedAt : row.updatedAt.map Datetime.stored = conv.updatedAt
  title : row.title = conv.title
  status : row.status = some conv.status
  parent : row.parentConversationId = conv.parentConversationId

/-- Listings show existing conversations as they are, each of them once. -/
structure ListsOnce (s : Store) : Prop where
  once : forall user limit cursor convs t,
    Prog.Finishes storageMachine noFault (ConversationRepository.list user limit cursor) s
      (.ok convs) t ->
    (convs.map Conversation.conversationId).Nodup ∧
    forall conv, conv ∈ convs ->
      exists row, s.conversations conv.conversationId = some row ∧
        IsListingOf user row conv
  complete : forall user limit convs t,
    Prog.Finishes storageMachine noFault (ConversationRepository.list user limit none) s
      (.ok convs) t ->
    (s.catalog user).rows.length ≤ limit ->
    forall c row, s.conversations c = some row -> row.userId = some user ->
      row.status ≠ some .deleted -> c ∈ convs.map Conversation.conversationId

/-- A batch finds what its operation has read, and a row that moves changes its key. -/
def Op.FindsAsRead (s : Store) : Op -> Prop
  | .batchUpdateConversation c user old new _ _ _ parent _ _ _ =>
      exists row, s.conversations c = some row ∧ row.IsAt user old ∧
        row.parentConversationId = parent ∧ old.stored.micros ≠ new.stored.micros
  | .batchUpdateTitle c user old new _ _ status parent =>
      exists row, s.conversations c = some row ∧ row.IsAt user old ∧
        row.parentConversationId = parent ∧ row.status = some status ∧
        old.stored.micros ≠ new.stored.micros
  | o => o.FindsRow s

theorem findsRow_of_findsAsRead {o : Op} {s : Store} (h : o.FindsAsRead s) :
    o.FindsRow s := by
  cases o with
  | batchUpdateConversation c user old new title createdAt status parent bucket eventId
      event =>
      rcases h with ⟨row, hrow, hat, _⟩
      exact ⟨row, hrow, hat⟩
  | batchUpdateTitle c user old new title createdAt status parent =>
      rcases h with ⟨row, hrow, hat, _⟩
      exact ⟨row, hrow, hat⟩
  | _ => exact h

/-!
# One operation
-/

theorem catalog_moveCatalog_new {s : Store} {user c : UUID} {old new : Datetime}
    {entry : CatalogRow} (hne : old.stored.micros ≠ new.stored.micros) :
    ((s.moveCatalog user c old new entry).catalog user).get
      (Store.catalogKey new.stored c) = some entry := by
  rw [catalogKey_stored, catalog_moveCatalog, if_pos rfl, if_pos rfl, if_neg]
  rw [catalogKey_inj]
  exact Ne.symm hne

theorem tablesAgree_exec {o : Op} {s : Store} (h : TablesAgree s)
    (hfinds : o.FindsAsRead s) : TablesAgree (o.exec s).2 := by
  constructor
  · intro c row hrow
    by_cases htarget : o.tableTarget = some c
    · cases o with
      | batchCreateConversation c' user title now status parent branch bucket eventId
          event =>
          cases htarget
          have hnew := (Function.update_self c _ _).symm.trans hrow
          cases hnew
          refine ⟨user, now.stored, ⟨some title, some now.stored, status, parent⟩,
            ⟨rfl, rfl⟩, ?_, rfl, rfl, rfl⟩
          show (((s.setConversationRow c _).setCatalog user _).catalog user).get _ = _
          rw [catalog_setCatalog, if_pos rfl, catalogKey_stored, Partition.get_upsert_self]
      | batchUpdateConversation c' user old new title createdAt status parent bucket
          eventId event =>
          cases htarget
          rcases hfinds with ⟨before, hbefore, hat, hparent, hne⟩
          have hnew := (Function.update_self c _ _).symm.trans hrow
          cases hnew
          refine ⟨user, new.stored, _, ⟨?_, rfl⟩, catalog_moveCatalog_new hne, rfl, rfl, ?_⟩
          · rw [hbefore]
            exact hat.left
          · rw [hbefore]
            exact hparent.symm
      | batchUpdateTitle c' user old new title createdAt status parent =>
          cases htarget
          rcases hfinds with ⟨before, hbefore, hat, hparent, hstatus, hne⟩
          have hnew := (Function.update_self c _ _).symm.trans hrow
          cases hnew
          refine ⟨user, new.stored, _, ⟨?_, rfl⟩, catalog_moveCatalog_new hne, rfl, ?_, ?_⟩
          · rw [hbefore]
            exact hat.left
          · rw [hbefore]
            exact hstatus.symm
          · rw [hbefore]
            exact hparent.symm
      | batchHardDelete c' user updatedAt =>
          cases htarget
          have hnone := (Function.update_self c _ _).symm.trans hrow
          cases hnone
      | _ => cases htarget
    · rcases exec_tables_ne htarget s with ⟨hrows, hcatalog⟩
      rw [hrows] at hrow
      rcases h.listed c row hrow with ⟨user, t, entry, hat, hget, hsame⟩
      refine ⟨user, t, entry, hat, ?_, hsame⟩
      rw [hcatalog user _ (keyConversation_catalogKey t c)]
      exact hget
  · intro c
    exact catalogueOf_exec (h.placed c) (findsRow_of_findsAsRead hfinds)

theorem tablesAgree_elapsed {s t : Store} (h : TablesAgree s) (helapsed : Elapsed s t) :
    TablesAgree t := by
  have hrows : t.conversations = s.conversations := by rw [helapsed.rest]
  have hcatalog : t.catalog = s.catalog := by rw [helapsed.rest]
  constructor
  · rw [hrows, hcatalog]
    exact h.listed
  · unfold Store.CatalogueOf
    rw [hrows, hcatalog]
    exact h.placed

/-!
# Listings
-/

theorem row_of_catalogRow {s : Store} (h : TablesAgree s) {user : UUID} {k : CatalogKey}
    {entry : CatalogRow} (hget : (s.catalog user).get k = some entry) :
    exists row updatedAt, s.conversations (keyConversation k) = some row ∧
      row.IsAt user updatedAt ∧ k = Store.catalogKey updatedAt (keyConversation k) ∧
      entry.title = row.title ∧ some entry.status = row.status ∧
      entry.parentConversationId = row.parentConversationId := by
  rcases h.placed _ user k entry hget rfl with ⟨row, t, hrow, hat, hkey⟩
  rcases h.listed _ row hrow with ⟨user', t', entry', hat', hget', hsame⟩
  have huser : some user' = some user := by rw [← hat'.left, hat.left]
  have htime : some t' = some t := by rw [← hat'.right, hat.right]
  cases huser
  cases htime
  rw [← hkey, hget] at hget'
  cases hget'
  exact ⟨row, t, hrow, hat, hkey, hsame⟩

theorem listsOnce_of_agree {s : Store} (h : TablesAgree s) : ListsOnce s := by
  constructor
  · intro user limit cursor convs t hfin
    rw [list_finishes hfin]
    have hsub := selectCatalog_sublist user limit cursor s
    constructor
    · have hkeys : (s.catalog user).rows.Pairwise
          (fun a b => keyConversation a.1 ≠ keyConversation b.1) := by
        refine (s.catalog user).sorted.imp_of_mem ?_
        intro a b ha hb hlt heq
        rcases row_of_catalogRow h ((Partition.get_eq_some_iff _ a.1 a.2).mpr ha) with
          ⟨rowA, tA, hrowA, hatA, hkeyA, _⟩
        rcases row_of_catalogRow h ((Partition.get_eq_some_iff _ b.1 b.2).mpr hb) with
          ⟨rowB, tB, hrowB, hatB, hkeyB, _⟩
        rw [heq, hrowB] at hrowA
        cases hrowA
        have htime : some tA = some tB := by rw [← hatA.right, hatB.right]
        cases htime
        rw [heq, ← hkeyB] at hkeyA
        rw [hkeyA] at hlt
        exact lt_irrefl _ hlt
      rw [List.Nodup, List.pairwise_map]
      refine List.Pairwise.filterMap _ ?_ (hkeys.sublist hsub)
      intro a b hab convA hconvA convB hconvB
      rw [(listedConversation_eq_some hconvA).right.left,
        (listedConversation_eq_some hconvB).right.left]
      exact hab
    · intro conv hconv
      rcases List.mem_filterMap.mp hconv with ⟨entry, hentry, hlisted⟩
      rcases listedConversation_eq_some hlisted with
        ⟨_, hid, hupdated, htitle, hstatus, hparent⟩
      have hget := (Partition.get_eq_some_iff _ entry.1 entry.2).mpr (hsub.subset hentry)
      rcases row_of_catalogRow h hget with
        ⟨row, updatedAt, hrow, hat, hkey, htitle', hstatus', hparent'⟩
      refine ⟨row, ?_, hat.left, ?_, ?_, ?_, ?_⟩
      · rw [hid]
        exact hrow
      · rw [hat.right, hupdated, hkey]
        rfl
      · rw [htitle, htitle']
      · rw [hstatus, hstatus']
      · rw [hparent, hparent']
  · intro user limit convs t hfin hlimit c row hrow huser hlive
    rw [list_finishes hfin]
    rcases h.listed c row hrow with ⟨user', updatedAt, entry, hat, hget, _, hstatus, _⟩
    have heq : some user' = some user := by rw [← hat.left, huser]
    cases heq
    have hmem := (Partition.get_eq_some_iff _ _ _).mp hget
    have hnot : entry.status ≠ .deleted := by
      intro hdeleted
      rw [← hstatus, hdeleted] at hlive
      exact hlive rfl
    have hshown : ConversationRepository.listedConversation user
        (Store.catalogKey updatedAt c, entry) = some _ := if_neg hnot
    refine List.mem_map.mpr ⟨_, List.mem_filterMap.mpr ⟨_, ?_, hshown⟩, rfl⟩
    show _ ∈ (s.catalog user).rows.take limit
    rw [List.take_of_length_le hlimit]
    exact hmem

/-!
# Runs
-/

/-- The calls of the repository, with a condition on every operation. -/
def repositoryRules (P : Store -> Op -> Prop) :
    Rules RepositoryCall storage PyExc Unit Store :=
  disturbed RepositoryCall.program (onNext P) (fun _ _ => True)

theorem tables_localProof :
    Pool.LocalProof (repositoryRules (fun s o => o.FindsAsRead s))
      (fun c => TablesAgree c.store) (fun _ _ => True) (fun _ _ => True) := by
  constructor
  case symm =>
    intro p q _
    trivial
  case own =>
    intro before after call o next s h hpermits
    exact ⟨tablesAgree_exec h.shared hpermits, trivial⟩
  case ownFault =>
    intro before after call o next s h _
    exact ⟨h.shared, trivial⟩
  case stable => intros; trivial
  case apartNext => intros; trivial
  case apartFault => intros; trivial
  case stopped =>
    intro before after call o next s h _ _
    exact h.shared
  case started =>
    intro c call h _
    exact ⟨h.shared, trivial, fun _ _ => trivial⟩
  case moved =>
    intro tasks s t h helapsed
    exact ⟨tablesAgree_elapsed h.shared helapsed, fun _ _ => trivial⟩

/-- While every batch finds what its operation has read, the tables agree. -/
theorem tables_agree {s : Store} (hs : TablesAgree s)
    {c : Pool RepositoryCall storage PyExc Unit Store}
    (hreach : Pool.Reaches (repositoryRules (fun s o => o.FindsAsRead s)) (startingFrom s)
      c) :
    TablesAgree c.store ∧ ListsOnce c.store := by
  have hstart : Pool.Holds (fun c => TablesAgree c.store) (fun _ _ => True)
      (fun _ _ => True) (startingFrom s : Pool RepositoryCall storage PyExc Unit Store) :=
    ⟨hs, fun _ _ => trivial, List.Pairwise.nil⟩
  have hend := Pool.holds_reaches tables_localProof hreach hstart
  exact ⟨hend.shared, listsOnce_of_agree hend.shared⟩

/-!
# Two updates that read the same row
-/

def titleUpdateAt (ms : Int) (title : Text) : RepositoryCall :=
  .updateTitle ⟨ms * 1000, true⟩ (.ofInt 1) (.str title)

def creationAt (ms : Int) : RepositoryCall :=
  .createWithOutbox ⟨ms * 1000, true⟩ (.ofInt 1) (.ofInt 2) (text "A") .active (.ofInt 3)
    conversationCreatedTopic
    { conversationId := .ofInt 1, userId := some (.ofInt 2), title := some (text "A"),
      status := text "ACTIVE", parentConversationId := none, branchMessageId := none,
      createdAt := none }
    none none

def titleSchedule : List (Pool.Act RepositoryCall) :=
  [ .start (creationAt 1), .perform 0,
    .start (titleUpdateAt 2 (text "B")), .perform 1, .perform 1 ]

/-- A creation, and two title updates that read before either of them writes. -/
def overlapSchedule : List (Pool.Act RepositoryCall) :=
  [ .start (creationAt 1), .perform 0,
    .start (titleUpdateAt 2 (text "B")), .start (titleUpdateAt 3 (text "C")),
    .perform 1, .perform 2, .perform 1, .perform 2 ]

theorem tablesAgree_blank : TablesAgree Store.blank := by
  constructor
  · intro c row hrow
    cases hrow
  · intro c user k entry hget
    cases hget

theorem tables_agree_after_title :
    TablesAgree ((titleSchedule.foldl
      (Pool.play (repositoryRules (fun s o => o.FindsAsRead s)))
      (startingFrom Store.blank)).store) := by
  refine (tables_agree tablesAgree_blank (Pool.reaches_schedule ?_)).left
  refine ⟨trivial, ?_, trivial, ?_, ?_, trivial⟩
  · intro t ht
    cases ht
    rfl
  · intro t ht
    cases ht
    trivial
  · intro t ht
    cases ht
    exact ⟨_, rfl, ⟨rfl, rfl⟩, rfl, rfl, by decide⟩

/-- Both updates move the row that they have read, and both new rows stay. -/
theorem tables_disagree_after_overlap :
    ¬forall c : Pool RepositoryCall storage PyExc Unit Store,
      Pool.Reaches
        (interleaving RepositoryCall.program (fun _ _ => True) (fun _ _ => True))
        (startingFrom Store.blank) c ->
      c.Quiet -> TablesAgree c.store := by
  intro h
  let rules := interleaving RepositoryCall.program (fun _ _ => True) (fun _ _ => True)
  let c := overlapSchedule.foldl (Pool.play rules) (startingFrom Store.blank)
  have hreach : Pool.Reaches rules (startingFrom Store.blank) c := by
    apply Pool.reaches_schedule
    exact ⟨trivial, fun _ _ => trivial, trivial, trivial, fun _ _ => trivial,
      fun _ _ => trivial, fun _ _ => trivial, fun _ _ => trivial, trivial⟩
  have hagree := h c hreach (by decide)
  have hentry : (c.store.catalog (.ofInt 2)).get
      (Store.catalogKey ⟨2000, true⟩ (.ofInt 1)) =
        some ⟨some (text "B"), some ⟨1000, false⟩, .active, none⟩ := by
    decide
  rcases hagree.placed _ _ _ _ hentry rfl with ⟨row, t, hrow, hat, hkey⟩
  have hstored : (c.store.conversations (.ofInt 1)).bind ConversationRow.updatedAt =
      some ⟨3000, false⟩ := by
    decide
  change c.store.conversations (.ofInt 1) = some row at hrow
  rw [hrow] at hstored
  have htime : t = ⟨3000, false⟩ := Option.some.inj (hat.right.symm.trans hstored)
  rw [htime] at hkey
  exact absurd hkey (by decide)

end ConversationService
