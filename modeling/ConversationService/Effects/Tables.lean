import ConversationService.Model.ConversationService
import ConversationService.Model.System

/-!
# The two conversation tables

`conversations` is keyed by the conversation and `conversations_by_user` by the time
of its last update. A row of the second table is where it belongs when the first one
has a row of its conversation with that owner and that time. A batch that finds the
row as its operation read it keeps this.
-/

namespace ConversationService

open Python ClusteredTable Programs

def keyConversation (k : CatalogKey) : UUID :=
  OrderDual.ofDual (ofLex k).2

@[simp] theorem keyConversation_catalogKey (t : Datetime) (c : UUID) :
    keyConversation (Store.catalogKey t c) = c := rfl

@[simp] theorem stored_stored (t : Datetime) : t.stored.stored = t.stored := by
  unfold Datetime.stored
  congr 1
  dsimp only
  omega

@[simp] theorem catalogKey_stored (t : Datetime) (c : UUID) :
    Store.catalogKey t.stored c = Store.catalogKey t c := by
  unfold Store.catalogKey
  rw [stored_stored]

theorem catalogKey_inj {t u : Datetime} {c : UUID} :
    Store.catalogKey t c = Store.catalogKey u c <-> t.stored.micros = u.stored.micros := by
  unfold Store.catalogKey
  rw [toLex_inj, Prod.mk.injEq]
  constructor
  · intro h
    exact h.left
  · intro h
    exact ⟨h, rfl⟩

/-!
# What each operation writes
-/

def Op.tableTarget : Op -> Option UUID
  | .batchCreateConversation c _ _ _ _ _ _ _ _ _ => some c
  | .batchUpdateConversation c _ _ _ _ _ _ _ _ _ _ => some c
  | .batchUpdateTitle c _ _ _ _ _ _ _ => some c
  | .batchHardDelete c _ _ => some c
  | _ => none

theorem exec_tables_of_none {o : Op} (h : o.tableTarget = none) (s : Store) :
    (o.exec s).2.conversations = s.conversations ∧ (o.exec s).2.catalog = s.catalog := by
  cases o with
  | batchCreateConversation _ _ _ _ _ _ _ _ _ _ => cases h
  | batchUpdateConversation _ _ _ _ _ _ _ _ _ _ _ => cases h
  | batchUpdateTitle _ _ _ _ _ _ _ _ => cases h
  | batchHardDelete _ _ _ => cases h
  | _ => exact ⟨rfl, rfl⟩

theorem catalog_setCatalog (s : Store) (user user' : UUID)
    (rows : Partition CatalogKey CatalogRow) (k : CatalogKey) :
    ((s.setCatalog user rows).catalog user').get k =
      if user' = user then rows.get k else (s.catalog user').get k := by
  unfold Store.setCatalog
  by_cases huser : user' = user
  · subst huser
    simp
  · simp [huser]

theorem catalog_moveCatalog (s : Store) (user user' c : UUID) (old new : Datetime)
    (row : CatalogRow) (k : CatalogKey) :
    ((s.moveCatalog user c old new row).catalog user').get k =
      if user' = user then
        if k = Store.catalogKey old c then none
        else if k = Store.catalogKey new c then some row
        else (s.catalog user).get k
      else (s.catalog user').get k := by
  unfold Store.moveCatalog
  rw [catalog_setCatalog]
  by_cases huser : user' = user
  · rw [if_pos huser, if_pos huser]
    by_cases hkeys : Store.catalogKey old c = Store.catalogKey new c
    · rw [if_pos hkeys, Partition.get_erase, hkeys]
      by_cases hk : k = Store.catalogKey new c <;> simp [hk]
    · rw [if_neg hkeys, Partition.get_upsert, Partition.get_erase]
      by_cases hnew : k = Store.catalogKey new c
      · subst hnew
        simp [Ne.symm hkeys]
      · simp [hnew]
  · rw [if_neg huser, if_neg huser]

theorem exec_tables_ne {o : Op} {c : UUID} (h : o.tableTarget ≠ some c) (s : Store) :
    (o.exec s).2.conversations c = s.conversations c ∧
      forall user k, keyConversation k = c ->
        ((o.exec s).2.catalog user).get k = (s.catalog user).get k := by
  have hother : forall {k : CatalogKey} {t : Datetime} {c' : UUID}, c' ≠ c ->
      keyConversation k = c -> k ≠ Store.catalogKey t c' := by
    intro k t c' hne hk heq
    rw [heq] at hk
    exact hne hk
  have htarget : forall {c' : UUID}, o.tableTarget = some c' -> c' ≠ c := by
    intro c' ho hc
    rw [ho, hc] at h
    exact h rfl
  cases o with
  | batchCreateConversation c' user' title now status parent branch bucket eventId event =>
      have hne := htarget rfl
      refine ⟨Function.update_of_ne (Ne.symm hne) _ _, ?_⟩
      intro user k hk
      show (((s.setConversationRow c' _).setCatalog user' _).catalog user).get k = _
      rw [catalog_setCatalog]
      split
      · rename_i huser
        rw [huser, Partition.get_upsert_ne _ _ (hother hne hk)]
      · rfl
  | batchUpdateConversation c' user' old new title createdAt status parent bucket eventId
      event =>
      have hne := htarget rfl
      refine ⟨Function.update_of_ne (Ne.symm hne) _ _, ?_⟩
      intro user k hk
      show ((s.moveCatalog user' c' old new _).catalog user).get k = _
      rw [catalog_moveCatalog, if_neg (hother hne hk), if_neg (hother hne hk)]
      split
      · rename_i huser
        rw [huser]
      · rfl
  | batchUpdateTitle c' user' old new title createdAt status parent =>
      have hne := htarget rfl
      refine ⟨Function.update_of_ne (Ne.symm hne) _ _, ?_⟩
      intro user k hk
      show ((s.moveCatalog user' c' old new _).catalog user).get k = _
      rw [catalog_moveCatalog, if_neg (hother hne hk), if_neg (hother hne hk)]
      split
      · rename_i huser
        rw [huser]
      · rfl
  | batchHardDelete c' user' updatedAt =>
      have hne := htarget rfl
      refine ⟨Function.update_of_ne (Ne.symm hne) _ _, ?_⟩
      intro user k hk
      show ((s.setCatalog user' _).catalog user).get k = _
      rw [catalog_setCatalog]
      split
      · rename_i huser
        rw [huser, Partition.get_erase, if_neg (hother hne hk)]
      · rfl
  | _ => exact ⟨rfl, fun _ _ _ => rfl⟩

/-!
# Rows where they belong
-/

def ConversationRow.IsAt (row : ConversationRow) (user : UUID) (updatedAt : Datetime) :
    Prop :=
  row.userId = some user ∧ row.updatedAt = some updatedAt

/-- Every catalogue row of the conversation is where the conversation's row says. -/
def Store.CatalogueOf (s : Store) (c : UUID) : Prop :=
  forall user k entry, (s.catalog user).get k = some entry -> keyConversation k = c ->
    exists row updatedAt, s.conversations c = some row ∧ row.IsAt user updatedAt ∧
      k = Store.catalogKey updatedAt c

/-- A batch finds the owner and the time that its operation has read. -/
def Op.FindsRow (s : Store) : Op -> Prop
  | .batchCreateConversation c _ _ _ _ _ _ _ _ _ => s.conversations c = none
  | .batchUpdateConversation c user old _ _ _ _ _ _ _ _ =>
      exists row, s.conversations c = some row ∧ row.IsAt user old
  | .batchUpdateTitle c user old _ _ _ _ _ =>
      exists row, s.conversations c = some row ∧ row.IsAt user old
  | .batchHardDelete c user updatedAt =>
      exists row, s.conversations c = some row ∧ row.IsAt user updatedAt
  | _ => True

theorem catalogueOf_move {s t : Store} {c user : UUID} {old new : Datetime}
    {row row' : ConversationRow} {entry : CatalogRow} (h : s.CatalogueOf c)
    (hrow : s.conversations c = some row) (hat : row.IsAt user old)
    (hrow' : t.conversations c = some row') (hat' : row'.IsAt user new.stored)
    (hcatalog : t.catalog = (s.moveCatalog user c old new entry).catalog) :
    t.CatalogueOf c := by
  intro user' k found hget hk
  rw [hcatalog, catalog_moveCatalog] at hget
  have hold : forall {user' : UUID} {k : CatalogKey} {found : CatalogRow},
      (s.catalog user').get k = some found -> keyConversation k = c ->
      user' = user ∧ k = Store.catalogKey old c := by
    intro user' k found hget hk
    rcases h user' k found hget hk with ⟨row₀, t₀, hrow₀, hat₀, hkey⟩
    rw [hrow] at hrow₀
    cases hrow₀
    have huser : some user' = some user := by rw [← hat₀.left, hat.left]
    have htime : some t₀ = some old := by rw [← hat₀.right, hat.right]
    cases huser
    cases htime
    exact ⟨rfl, hkey⟩
  split at hget
  · rename_i huser
    split at hget
    · cases hget
    · rename_i hne
      split at hget
      · rename_i hnew
        refine ⟨row', new.stored, hrow', ?_, ?_⟩
        · rw [huser]
          exact hat'
        · rw [catalogKey_stored]
          exact hnew
      · exact absurd (hold hget hk).right hne
  · rename_i huser
    exact absurd (hold hget hk).left huser

theorem catalogueOf_exec_ne {o : Op} {s : Store} {c : UUID} (h : s.CatalogueOf c)
    (htarget : o.tableTarget ≠ some c) : (o.exec s).2.CatalogueOf c := by
  rcases exec_tables_ne htarget s with ⟨hrows, hcatalog⟩
  intro user k found hget hk
  rw [hcatalog user k hk] at hget
  rw [hrows]
  exact h user k found hget hk

theorem catalogueOf_exec {o : Op} {s : Store} {c : UUID} (h : s.CatalogueOf c)
    (hfinds : o.FindsRow s) : (o.exec s).2.CatalogueOf c := by
  by_cases htarget : o.tableTarget = some c
  · cases o with
    | batchCreateConversation c' user title now status parent branch bucket eventId
        event =>
        cases htarget
        intro user' k found hget hk
        have hnone : forall {user' : UUID} {k : CatalogKey} {found : CatalogRow},
            (s.catalog user').get k = some found -> keyConversation k ≠ c := by
          intro user' k found hget hk
          rcases h user' k found hget hk with ⟨row, _, hrow, _⟩
          have habsent : s.conversations c = none := hfinds
          rw [habsent] at hrow
          cases hrow
        change (((s.setConversationRow c _).setCatalog user _).catalog user').get k = _
          at hget
        rw [catalog_setCatalog] at hget
        split at hget
        · rename_i huser
          rw [Partition.get_upsert] at hget
          split at hget
          · rename_i hkey
            refine ⟨_, now.stored, Function.update_self _ _ _, ⟨?_, rfl⟩, ?_⟩
            · rw [huser]
            · rw [catalogKey_stored]
              exact hkey
          · exact absurd hk (hnone hget)
        · exact absurd hk (hnone hget)
    | batchUpdateConversation c' user old new title createdAt status parent bucket
        eventId event =>
        cases htarget
        rcases hfinds with ⟨row, hrow, hat⟩
        refine catalogueOf_move h hrow hat (Function.update_self _ _ _) ⟨?_, rfl⟩ rfl
        rw [hrow]
        exact hat.left
    | batchUpdateTitle c' user old new title createdAt status parent =>
        cases htarget
        rcases hfinds with ⟨row, hrow, hat⟩
        refine catalogueOf_move h hrow hat (Function.update_self _ _ _) ⟨?_, rfl⟩ rfl
        rw [hrow]
        exact hat.left
    | batchHardDelete c' user updatedAt =>
        cases htarget
        rcases hfinds with ⟨row, hrow, hat⟩
        intro user' k found hget hk
        change ((s.setCatalog user _).catalog user').get k = _ at hget
        rw [catalog_setCatalog] at hget
        have hplace : forall {user' : UUID}, (s.catalog user').get k = some found ->
            user' = user ∧ k = Store.catalogKey updatedAt c := by
          intro user' hget
          rcases h user' k found hget hk with ⟨row₀, t₀, hrow₀, hat₀, hkey⟩
          rw [hrow] at hrow₀
          cases hrow₀
          have huser : some user' = some user := by rw [← hat₀.left, hat.left]
          have htime : some t₀ = some updatedAt := by rw [← hat₀.right, hat.right]
          cases huser
          cases htime
          exact ⟨rfl, hkey⟩
        split at hget
        · rw [Partition.get_erase] at hget
          split at hget
          · cases hget
          · rename_i hne
            exact absurd (hplace hget).right hne
        · rename_i huser
          exact absurd (hplace hget).left huser
    | _ => cases htarget
  · exact catalogueOf_exec_ne h htarget

/-!
# Listings
-/

theorem list_finishes {user : UUID} {limit : Nat} {cursor : Option Datetime}
    {convs : List Conversation} {s t : Store}
    (hfin : Prog.Finishes storageMachine noFault
      (ConversationRepository.list user limit cursor) s (.ok convs) t) :
    convs = ((Op.selectCatalog user limit cursor).exec s).1.filterMap
      (ConversationRepository.listedConversation user) := by
  have hwp : Prog.wp storageMachine noFault
      (ConversationRepository.list user limit cursor)
      (fun r _ => r = ((Op.selectCatalog user limit cursor).exec s).1.filterMap
        (ConversationRepository.listedConversation user))
      (fun _ _ => False) s := by
    constructor
    · rfl
    · intro hfail
      exact hfail.elim
  exact Prog.wp_finishes hwp hfin

theorem selectCatalog_sublist (user : UUID) (limit : Nat) (cursor : Option Datetime)
    (s : Store) :
    ((Op.selectCatalog user limit cursor).exec s).1.Sublist (s.catalog user).rows := by
  unfold Op.exec
  dsimp only
  refine (List.take_sublist _ _).trans ?_
  cases cursor with
  | none => exact List.Sublist.refl _
  | some t => exact List.filter_sublist

theorem listedConversation_eq_some {user : UUID} {entry : CatalogKey × CatalogRow}
    {conv : Conversation}
    (h : ConversationRepository.listedConversation user entry = some conv) :
    entry.2.status ≠ .deleted ∧ conv.conversationId = keyConversation entry.1 ∧
      conv.updatedAt = some ⟨(ofLex entry.1).1, false⟩ ∧ conv.title = entry.2.title ∧
      conv.status = entry.2.status ∧
      conv.parentConversationId = entry.2.parentConversationId := by
  unfold ConversationRepository.listedConversation at h
  split at h
  · cases h
  · rename_i hstatus
    cases h
    exact ⟨hstatus, rfl, rfl, rfl, rfl, rfl⟩

end ConversationService
