import ConversationService.Effects.Operations
import ConversationService.Effects.Tables

/-!
# Purging a conversation

The cleanup worker deletes a conversation piece by piece: the cached conversation, the
cached list, the messages, and the rows of the two conversation tables. This module
says which operations put a piece back, and which programs read a piece before they do.
-/

namespace ConversationService

open Python ClusteredTable Programs

/-- Nothing is left of the conversation. -/
structure Purged (c : UUID) (s : Store) : Prop where
  messages : forall id, s.row c id = none
  conversation : s.conversations c = none
  catalogue : forall user k entry, (s.catalog user).get k = some entry ->
    keyConversation k ≠ c
  cached : s.conversationCache c = none
  history : s.historyCache c = none

/-!
# Putting a piece back
-/

def Op.FillsConversation (c : UUID) : Op -> Prop
  | .hsetConversation c' _ => c' = c
  | _ => False

def Op.FillsHistory (c : UUID) : Op -> Prop
  | .rpushHistory c' _ => c' = c
  | _ => False

/-- The operation writes no message but by a plain `INSERT`, and creates nothing. -/
def Op.CreatesNothing : Op -> Prop
  | .batchMessageOutbox _ _ _ _ _ _ _ _ _ _ => False
  | .updateDeleted _ _ => False
  | .batchCreateConversation _ _ _ _ _ _ _ _ _ _ => False
  | _ => True

/-- The operation is an `INSERT` of a message of the conversation. -/
def Op.InsertsInto (c : UUID) : Op -> Prop
  | .insertMessage c' _ _ _ _ _ _ => c' = c
  | _ => False

/-- A batch on the conversation finds the row that was read, a deletion perhaps no row. -/
def Op.MeetsRow (c : UUID) (s : Store) : Op -> Prop
  | .batchHardDelete c' user updatedAt =>
      c' = c -> s.conversations c = none ∨ (Op.batchHardDelete c' user updatedAt).FindsRow s
  | o => o.tableTarget = some c -> o.FindsRow s

section Pieces

variable {c : UUID} {o : Op} {s : Store}

theorem conversationCache_exec (h : s.conversationCache c = none)
    (ho : ¬o.FillsConversation c) : (o.exec s).2.conversationCache c = none := by
  cases o with
  | hsetConversation c' conv =>
      have hne : c ≠ c' := fun heq => ho heq.symm
      exact (Function.update_of_ne hne _ _).trans h
  | deleteConversation c' =>
      show Function.update s.conversationCache c' none c = none
      rw [Function.update_apply]
      split
      · rfl
      · exact h
  | _ => exact h

theorem historyCache_exec (h : s.historyCache c = none) (ho : ¬o.FillsHistory c) :
    (o.exec s).2.historyCache c = none := by
  cases o with
  | rpushHistory c' messages =>
      have hne : c ≠ c' := fun heq => ho heq.symm
      exact (Function.update_of_ne hne _ _).trans h
  | deleteHistory c' =>
      show Function.update s.historyCache c' none c = none
      rw [Function.update_apply]
      split
      · rfl
      · exact h
  | _ => exact h

theorem messages_exec (h : s.messages c = .empty) (ho : o.CreatesNothing)
    (hinserts : ¬o.InsertsInto c) : (o.exec s).2.messages c = .empty := by
  cases o with
  | insertMessage c' _ _ _ _ _ _ =>
      have hne : c ≠ c' := fun heq => hinserts heq.symm
      exact (Function.update_of_ne hne _ _).trans h
  | deleteAllMessages c' =>
      show Function.update s.messages c' .empty c = .empty
      rw [Function.update_apply]
      split
      · rfl
      · exact h
  | batchMessageOutbox _ _ _ _ _ _ _ _ _ _ => exact ho.elim
  | updateDeleted _ _ => exact ho.elim
  | _ => exact h

/-- A row that is gone stays so when every batch has to find the row that it has read. -/
theorem conversations_exec (h : s.conversations c = none) (ho : o.CreatesNothing)
    (hmeets : o.MeetsRow c s) : (o.exec s).2.conversations c = none := by
  by_cases htarget : o.tableTarget = some c
  · cases o with
    | batchCreateConversation _ _ _ _ _ _ _ _ _ _ => exact ho.elim
    | batchHardDelete c' _ _ =>
        cases htarget
        exact Function.update_self _ _ _
    | batchUpdateConversation _ _ _ _ _ _ _ _ _ _ _ =>
        cases htarget
        rcases hmeets rfl with ⟨row, hrow, _⟩
        rw [h] at hrow
        cases hrow
    | batchUpdateTitle _ _ _ _ _ _ _ _ =>
        cases htarget
        rcases hmeets rfl with ⟨row, hrow, _⟩
        rw [h] at hrow
        cases hrow
    | _ => cases htarget
  · rw [(exec_tables_ne htarget s).left]
    exact h

end Pieces

/-!
# Conversations that can be purged
-/

/--
The row, if there is one, has the columns that a purge needs, and there is no catalogue
row but at its key.
-/
structure Purgeable (c : UUID) (s : Store) : Prop where
  complete : forall row, s.conversations c = some row ->
    row.status.isSome = true ∧ row.userId.isSome = true ∧ row.updatedAt.isSome = true
  placed : s.CatalogueOf c

theorem purgeable_exec {c : UUID} {o : Op} {s : Store} (h : Purgeable c s)
    (ho : o.CreatesNothing) (hmeets : o.MeetsRow c s) : Purgeable c (o.exec s).2 := by
  by_cases htarget : o.tableTarget = some c
  · cases o with
    | batchCreateConversation _ _ _ _ _ _ _ _ _ _ => exact ho.elim
    | batchHardDelete c' user updatedAt =>
        cases htarget
        constructor
        · intro row hrow
          have hnone := (Function.update_self c _ _).symm.trans hrow
          cases hnone
        · rcases hmeets rfl with hgone | hfinds
          · intro user' k entry hget hk
            change ((s.setCatalog user _).catalog user').get k = _ at hget
            rw [catalog_setCatalog] at hget
            have hold : (s.catalog user').get k = some entry := by
              split at hget
              · rename_i huser
                rw [Partition.get_erase] at hget
                split at hget
                · cases hget
                · rw [huser]
                  exact hget
              · exact hget
            rcases h.placed user' k entry hold hk with ⟨row, _, hrow, _⟩
            rw [hgone] at hrow
            cases hrow
          · exact catalogueOf_exec h.placed hfinds
    | batchUpdateConversation c' user old new title createdAt status parent bucket eventId
        event =>
        cases htarget
        have hfinds := hmeets rfl
        refine ⟨?_, catalogueOf_exec h.placed hfinds⟩
        intro row hrow
        have hnew := (Function.update_self c _ _).symm.trans hrow
        cases hnew
        rcases hfinds with ⟨before, hbefore, hat⟩
        refine ⟨rfl, ?_, rfl⟩
        rw [hbefore]
        exact (h.complete before hbefore).right.left
    | batchUpdateTitle c' user old new title createdAt status parent =>
        cases htarget
        have hfinds := hmeets rfl
        refine ⟨?_, catalogueOf_exec h.placed hfinds⟩
        intro row hrow
        have hnew := (Function.update_self c _ _).symm.trans hrow
        cases hnew
        rcases hfinds with ⟨before, hbefore, hat⟩
        rcases h.complete before hbefore with ⟨hstatus, huser, _⟩
        refine ⟨?_, ?_, rfl⟩
        · rw [hbefore]
          exact hstatus
        · rw [hbefore]
          exact huser
    | _ => cases htarget
  · refine ⟨?_, catalogueOf_exec_ne h.placed htarget⟩
    rw [(exec_tables_ne htarget s).left]
    exact h.complete

theorem purgeable_elapsed {c : UUID} {s t : Store} (h : Purgeable c s)
    (helapsed : Elapsed s t) : Purgeable c t := by
  have hrows : t.conversations = s.conversations := by rw [helapsed.rest]
  have hcatalog : t.catalog = s.catalog := by rw [helapsed.rest]
  constructor
  · rw [hrows]
    exact h.complete
  · unfold Store.CatalogueOf
    rw [hrows, hcatalog]
    exact h.placed

/-!
# Reading before filling
-/

def Op.ShowsConversation (c : UUID) : (o : Op) -> o.Res -> Prop
  | .selectConversation c', row => c' = c ∧ row.isSome = true
  | _, _ => False

def Op.ShowsHistory (c : UUID) : (o : Op) -> o.Res -> Prop
  | .selectHistory c' _ _, rows => c' = c ∧ rows ≠ []
  | _, _ => False

/-- The program does not fill the cached conversation before it is shown its row. -/
def RereadsConversation (c : UUID) (p : Py Unit) : Prop :=
  Prog.Guarded (S := storage) (Op.ShowsConversation c) (Op.FillsConversation c) p

/-- The program does not fill the cached list before it is shown messages. -/
def RereadsHistory (c : UUID) (p : Py Unit) : Prop :=
  Prog.Guarded (S := storage) (Op.ShowsHistory c) (Op.FillsHistory c) p

section Rereads

variable {alpha beta : Type} {c c' : UUID} {cache : Option CacheService}

theorem guarded_repositoryGet {f : Option Conversation -> Py beta}
    (hnone : Prog.Guarded (S := storage) (Op.ShowsConversation c) (Op.FillsConversation c)
      (f none)) :
    Prog.Guarded (S := storage) (Op.ShowsConversation c) (Op.FillsConversation c)
      (ConversationRepository.get c >>= f) := by
  refine ⟨fun h => h, trivial, ?_⟩
  intro row
  cases row with
  | none => exact Or.inr hnone
  | some row => exact Or.inl ⟨rfl, rfl⟩

theorem guarded_conversationGet :
    Prog.Guarded (S := storage) (Op.ShowsConversation c) (Op.FillsConversation c)
      (ConversationReads.get cache c) := by
  unfold ConversationReads.get ConversationReads.getCached
  apply Prog.guarded_bind
  · apply Prog.guarded_of_allOps
    cases cache with
    | none => exact onlyOps_ret _
    | some cache => exact onlyOps_getConversation cache (fun h => h)
  · intro cached
    cases cached with
    | some conv => trivial
    | none => exact guarded_repositoryGet trivial

theorem guarded_rename {reads : ConversationReadings} {newTitle : Text} :
    Prog.Guarded (S := storage) (Op.ShowsConversation c) (Op.FillsConversation c)
      (ConversationWrites.rename cache reads c newTitle) := by
  apply Prog.guarded_bind guarded_conversationGet
  intro found
  cases found with
  | none => trivial
  | some conv =>
      unfold ConversationWrites.updateThrough ConversationRepository.updateWithOutbox
      dsimp only
      rw [Prog.bind_assoc]
      exact guarded_repositoryGet trivial

theorem not_fillsConversation_of_finds (hne : c' ≠ c) {o : Op} (ho : o.Finds c') :
    ¬o.FillsConversation c := by
  cases o with
  | hsetConversation c'' conv =>
      intro hfills
      exact hne (Eq.trans (Eq.symm ho) hfills)
  | _ => exact fun h => h

theorem rereadsConversation_get :
    RereadsConversation c (ignoreResult (ConversationReads.get cache c')) := by
  refine Prog.guarded_bind ?_ (fun _ => trivial)
  by_cases hc : c' = c
  · rw [hc]
    exact guarded_conversationGet
  · exact Prog.guarded_of_allOps (Prog.allOps_mono (onlyFinds_conversationGet cache c')
      (fun _ ho => not_fillsConversation_of_finds hc ho))

theorem rereadsConversation_rename {reads : ConversationReadings} {newTitle : Text} :
    RereadsConversation c
      (ignoreResult (ConversationWrites.rename cache reads c' newTitle)) := by
  refine Prog.guarded_bind ?_ (fun _ => trivial)
  by_cases hc : c' = c
  · rw [hc]
    exact guarded_rename
  · exact Prog.guarded_of_allOps (onlyOps_rename cache
      (fun _ ho => not_fillsConversation_of_finds hc ho)
      (fun _ _ _ _ _ _ _ _ h => h))

theorem rereadsHistory_history {svc : MessageService} {limit : Nat}
    {cursor : Option UUID} :
    RereadsHistory c (ignoreResult (svc.history c' limit cursor)) := by
  refine Prog.guarded_bind ?_ (fun _ => trivial)
  by_cases hc : c' = c
  · subst hc
    unfold MessageService.history
    apply Prog.guarded_bind
    · apply Prog.guarded_of_allOps
      unfold MessageService.cachedHistory
      split
      · exact onlyOps_getLast50Messages _ (fun h => h)
      · exact onlyOps_ret _
    · intro cached
      cases cached with
      | some messages => trivial
      | none =>
          refine ⟨fun h => h, trivial, ?_⟩
          intro rows
          by_cases hrows : rows = []
          · right
            subst hrows
            apply Prog.guarded_of_allOps
            dsimp only [Prog.bind, Prog.pure_eq_ret, List.filterMap_nil]
            split
            · rename_i cache _
              refine onlyOps_bind ?_ (fun _ => onlyOps_ret _)
              unfold CacheService.setLast50Messages
              simp only [List.isEmpty_nil, Bool.or_true, if_true]
              exact onlyOps_ret _
            · exact onlyOps_ret _
          · exact Or.inl ⟨rfl, hrows⟩
  · apply Prog.guarded_of_allOps
    apply Prog.allOps_mono (MessageService.onlyPages_history svc c' limit cursor)
    intro o ho
    cases o with
    | rpushHistory c'' messages =>
        intro hfills
        exact hc (Eq.trans (Eq.symm ho) hfills)
    | _ => exact fun h => h

end Rereads

end ConversationService
