import ConversationService.Model.Replicas
import ConversationService.Effects.CachedReads
import ConversationService.Effects.Operations
import ConversationService.Effects.Tables

/-!
# Deleted conversations

The status of a conversation is written from a read that may be stale: of the cache,
which a deletion evicts only after its batch, or of the table. While the calls on a
conversation stay clear of its deletion, and none archives it afterwards, the row, the
cached conversation and the catalogue agree on whether it is deleted, and a deleted one
stays deleted.
-/

namespace ConversationService

open Python ClusteredTable Programs

/-- The row of the conversation has the status `deleted`. -/
def Store.IsDeleted (s : Store) (c : UUID) : Prop :=
  exists row, s.conversations c = some row ∧ row.status = some .deleted

/-- Both tables say of the conversation that it is deleted, or both that it is not. -/
structure TablesSay (c : UUID) (gone : Prop) (s : Store) : Prop where
  row : s.IsDeleted c <-> gone
  placed : s.CatalogueOf c
  listed : gone -> forall user k entry, (s.catalog user).get k = some entry ->
    keyConversation k = c -> entry.status = .deleted

/-- So does the cache. -/
structure AllSay (cache : Option CacheService) (c : UUID) (gone : Prop) (s : Store) :
    Prop where
  tables : TablesSay c gone s
  cached : forall conv, cachedConversation cache s c = some conv ->
    (conv.status = .deleted <-> gone)

/-- The tables and the cache say the same of the conversation. -/
def Settled (cache : Option CacheService) (c : UUID) (s : Store) : Prop :=
  exists gone, AllSay cache c gone s

/-!
# One operation
-/

/-- What the operation writes of the status into the tables is right. -/
def Op.Writes (c : UUID) (gone : Prop) : Op -> Prop
  | .batchUpdateConversation c' _ _ _ _ _ status _ _ _ _ =>
      c' = c ∧ (status = .deleted <-> gone)
  | .batchUpdateTitle c' _ _ _ _ _ status _ => c' = c ∧ (status = .deleted <-> gone)
  | .batchCreateConversation _ _ _ _ _ _ _ _ _ _ => False
  | .batchHardDelete _ _ _ => False
  | _ => True

/-- And so is what it caches. -/
def Op.Says (c : UUID) (gone : Prop) : Op -> Prop
  | .hsetConversation _ conv => conv.status = .deleted <-> gone
  | o => o.Writes c gone

theorem Op.Says.writes {c : UUID} {gone : Prop} {o : Op} (h : o.Says c gone) :
    o.Writes c gone := by
  cases o with
  | hsetConversation _ _ => trivial
  | _ => exact h

theorem entry_moveCatalog {s : Store} {user user' c : UUID} {old new : Datetime}
    {row entry : CatalogRow}
    (hget : ((s.moveCatalog user c old new row).catalog user').get
      (Store.catalogKey new c) = some entry) (huser : user' = user) : entry = row := by
  rw [catalog_moveCatalog, if_pos huser] at hget
  split at hget
  · cases hget
  · rw [if_pos rfl] at hget
    exact (Option.some.inj hget).symm

theorem entry_of_moved {s t : Store} {user user' c : UUID} {old new : Datetime}
    {row entry : CatalogRow} {after : ConversationRow} {k : CatalogKey}
    (hplaced : t.CatalogueOf c) (hafter : t.conversations c = some after)
    (hat : after.IsAt user new.stored)
    (hcatalog : t.catalog = (s.moveCatalog user c old new row).catalog)
    (hget : (t.catalog user').get k = some entry) (hk : keyConversation k = c) :
    entry = row := by
  rcases hplaced user' k entry hget hk with ⟨found, time, hfound, hplace, hkey⟩
  rw [hafter] at hfound
  cases hfound
  have huser : some user' = some user := by rw [← hplace.left, hat.left]
  have htime : some time = some new.stored := by rw [← hplace.right, hat.right]
  cases huser
  cases htime
  rw [hkey, catalogKey_stored, hcatalog] at hget
  exact entry_moveCatalog hget rfl

theorem tablesSay_update {c user : UUID} {gone : Prop} {s : Store} {old new : Datetime}
    {title : Option Text} {createdAt : Option Datetime} {status : ConversationStatus}
    {parent : Option UUID} {bucket : Nat} {eventId : UUID} {event : ConversationOutboxRow}
    (hplaced : s.CatalogueOf c)
    (hfinds : (Op.batchUpdateConversation c user old new title createdAt status parent
      bucket eventId event).FindsRow s)
    (hstatus : status = .deleted <-> gone) :
    TablesSay c gone ((Op.batchUpdateConversation c user old new title createdAt status
      parent bucket eventId event).exec s).2 := by
  have hplaced' := catalogueOf_exec hplaced hfinds
  refine ⟨?_, hplaced', ?_⟩
  · rw [← hstatus]
    constructor
    · intro h
      rcases h with ⟨row, hrow, hdeleted⟩
      have hnew := (Function.update_self c _ _).symm.trans hrow
      cases hnew
      exact Option.some.inj hdeleted
    · intro h
      exact ⟨_, Function.update_self _ _ _, by rw [← h]; rfl⟩
  · intro hgone user' k entry hget hk
    rcases hfinds with ⟨before, hbefore, hat⟩
    have hentry := entry_of_moved hplaced' (Function.update_self _ _ _)
      ⟨by rw [hbefore]; exact hat.left, rfl⟩ rfl hget hk
    rw [hentry]
    exact hstatus.mpr hgone

theorem tablesSay_exec {c : UUID} {gone : Prop} {o : Op} {s : Store}
    (h : TablesSay c gone s) (hright : o.Writes c gone) (hfinds : o.FindsRow s) :
    TablesSay c gone (o.exec s).2 := by
  have hother : o.tableTarget = none -> TablesSay c gone (o.exec s).2 := by
    intro htarget
    rcases exec_tables_of_none htarget s with ⟨hrows, hcatalog⟩
    refine ⟨?_, catalogueOf_exec h.placed hfinds, ?_⟩
    · unfold Store.IsDeleted
      rw [hrows]
      exact h.row
    · rw [hcatalog]
      exact h.listed
  cases o with
  | batchCreateConversation _ _ _ _ _ _ _ _ _ _ => exact hright.elim
  | batchHardDelete _ _ _ => exact hright.elim
  | batchUpdateConversation c' user old new title createdAt status parent bucket eventId
      event =>
      rcases hright with ⟨rfl, hstatus⟩
      exact tablesSay_update h.placed hfinds hstatus
  | batchUpdateTitle c' user old new title createdAt status parent =>
      rcases hright with ⟨rfl, hstatus⟩
      refine ⟨?_, catalogueOf_exec h.placed hfinds, ?_⟩
      · rw [← h.row]
        rcases hfinds with ⟨before, hbefore, _⟩
        constructor
        · intro hnow
          rcases hnow with ⟨row, hrow, hdeleted⟩
          have hnew := (Function.update_self c' _ _).symm.trans hrow
          cases hnew
          rw [hbefore] at hdeleted
          exact ⟨before, hbefore, hdeleted⟩
        · intro hbeforehand
          rcases hbeforehand with ⟨row, hrow, hdeleted⟩
          refine ⟨_, Function.update_self _ _ _, ?_⟩
          rw [hrow]
          exact hdeleted
      · intro hgone user' k entry hget hk
        have hplaced := catalogueOf_exec h.placed hfinds
        rcases hfinds with ⟨before, hbefore, hat⟩
        have hentry := entry_of_moved hplaced (Function.update_self _ _ _)
          ⟨by rw [hbefore]; exact hat.left, rfl⟩ rfl hget hk
        rw [hentry]
        exact hstatus.mpr hgone
  | _ => exact hother rfl

theorem cachedConversation_exec (cache : Option CacheService) {c : UUID} {o : Op}
    (s : Store) {conv : Conversation}
    (h : cachedConversation cache (o.exec s).2 c = some conv) :
    cachedConversation cache s c = some conv ∨ exists c', o = .hsetConversation c' conv := by
  have hset : forall {c' : UUID} {value : Option Conversation},
      cachedConversation cache (s.setConversationCache c' value) c = some conv ->
      cachedConversation cache s c = some conv ∨ value = some conv := by
    intro c' value hcached
    unfold cachedConversation at hcached ⊢
    cases cache with
    | none => cases hcached
    | some cache =>
        dsimp only at hcached ⊢
        split at hcached
        · rename_i hredis
          rw [if_pos hredis]
          unfold Store.setConversationCache at hcached
          by_cases hc : c = c'
          · subst hc
            dsimp only at hcached
            rw [Function.update_self] at hcached
            exact Or.inr (Option.filter_eq_some_iff.mp hcached).left
          · dsimp only at hcached
            rw [Function.update_of_ne hc] at hcached
            exact Or.inl hcached
        · cases hcached
  cases o with
  | hsetConversation c' conv' =>
      rcases hset h with hold | hnew
      · exact Or.inl hold
      · cases hnew
        exact Or.inr ⟨c', rfl⟩
  | deleteConversation c' =>
      rcases hset h with hold | hnew
      · exact Or.inl hold
      · cases hnew
  | _ => exact Or.inl h

theorem allSay_exec {cache : Option CacheService} {c : UUID} {gone : Prop} {o : Op}
    {s : Store} (h : AllSay cache c gone s) (hright : o.Says c gone)
    (hfinds : o.FindsRow s) : AllSay cache c gone (o.exec s).2 := by
  refine ⟨tablesSay_exec h.tables hright.writes hfinds, ?_⟩
  intro conv hcached
  rcases cachedConversation_exec cache s hcached with hold | ⟨c', rfl⟩
  · exact h.cached conv hold
  · exact hright

/-!
# The passing of time
-/

theorem tablesSay_elapsed {c : UUID} {gone : Prop} :
    StableUnder Elapsed (TablesSay c gone) := by
  intro s t helapsed h
  have hrows : t.conversations = s.conversations := by rw [helapsed.rest]
  have hcatalog : t.catalog = s.catalog := by rw [helapsed.rest]
  refine ⟨?_, ?_, ?_⟩
  · unfold Store.IsDeleted
    rw [hrows]
    exact h.row
  · unfold Store.CatalogueOf
    rw [hrows, hcatalog]
    exact h.placed
  · rw [hcatalog]
    exact h.listed

theorem cachedConversation_elapsed {cache : Option CacheService} {c : UUID} {s t : Store}
    {conv : Conversation} (helapsed : Elapsed s t)
    (h : cachedConversation cache t c = some conv) :
    cachedConversation cache s c = some conv := by
  rcases helapsed.conversationCache c with hsame | hnone
  · unfold cachedConversation at h ⊢
    rw [← hsame]
    exact h
  · rw [cachedConversation_of_none cache hnone] at h
    cases h

theorem allSay_elapsed {cache : Option CacheService} {c : UUID} {gone : Prop} :
    StableUnder Elapsed (AllSay cache c gone) := by
  intro s t helapsed h
  refine ⟨tablesSay_elapsed s t helapsed h.tables, ?_⟩
  intro conv hcached
  exact h.cached conv (cachedConversation_elapsed helapsed hcached)

theorem settled_elapsed {cache : Option CacheService} {c : UUID} :
    StableUnder Elapsed (Settled cache c) := by
  intro s t helapsed h
  rcases h with ⟨gone, hsay⟩
  exact ⟨gone, allSay_elapsed s t helapsed hsay⟩

/-!
# Calls that find the conversation in one state
-/

/-- Everything may raise but the eviction of a conversation. -/
def Op.IsNoEviction : Op -> Prop
  | .deleteConversation _ => False
  | _ => True

/-- Batches find the rows that were read; keys may expire. -/
def batchesFindRows : Surroundings storage Store :=
  amid Op.IsNoEviction (fun s o => o.FindsRow s) Elapsed

section Within

variable {cache : Option CacheService} {c : UUID} {gone : Prop}

def SaysGone (gone : Prop) (conv : Conversation) : Prop :=
  conv.status = .deleted <-> gone

theorem within_say {o : Op} (hright : o.Says c gone) :
    Prog.within batchesFindRows (AllSay cache c gone) (perform o) (fun _ => True)
      (fun _ => True) :=
  within_perform (fun _ hs hfinds => allSay_exec hs hright hfinds) (fun _ _ => trivial)

theorem readsAs_say : ReadsAs (AllSay cache c gone) cache c (SaysGone gone) := by
  constructor
  · intro s conv hs hcached
    exact hs.cached conv hcached
  · intro s conv hs hstored
    unfold storedConversation at hstored
    split at hstored
    · cases hstored
    · rename_i row hrow
      rcases Option.map_eq_some_iff.mp hstored with ⟨conv', hconv, heq⟩
      cases heq
      rcases Option.map_eq_some_iff.mp hconv with ⟨status, hstatus, rfl⟩
      unfold SaysGone
      rw [← hs.tables.row]
      constructor
      · intro hdeleted
        refine ⟨row, hrow, ?_⟩
        rw [hstatus]
        exact congrArg some hdeleted
      · intro hdeleted
        rcases hdeleted with ⟨row', hrow', hdeleted⟩
        rw [hrow] at hrow'
        cases hrow'
        rw [hstatus] at hdeleted
        exact Option.some.inj hdeleted

theorem within_get_say :
    Prog.within batchesFindRows (AllSay cache c gone) (ConversationReads.get cache c)
      (Found (SaysGone gone)) (fun _ => True) :=
  within_conversationGet readsAs_say
    (fun _ _ htells _ _ hs hfinds => allSay_exec hs htells hfinds)

theorem within_repositoryGet_say :
    Prog.within batchesFindRows (AllSay cache c gone) (ConversationRepository.get c)
      (Found (SaysGone gone)) (fun _ => True) :=
  Prog.within_mono (within_repositoryGet readsAs_say)
    (fun _ h conv hconv => (h conv hconv).left) (fun _ _ => trivial)

theorem within_setConversation_say {cache' : CacheService} {conv : Conversation}
    (htells : SaysGone gone conv) :
    Prog.within batchesFindRows (AllSay cache c gone) (cache'.setConversation conv)
      (fun _ => True) (fun _ => True) :=
  within_setConversation (fun _ _ hs hfinds => allSay_exec hs htells hfinds)

theorem within_evict_say (cache' : Option CacheService) :
    Prog.within batchesFindRows (AllSay cache c gone)
      (ConversationWrites.forCache cache' (fun cache => cache.deleteConversation c))
      (fun _ => True) (fun _ => True) :=
  within_evict cache' (fun _ hs hfinds => allSay_exec hs trivial hfinds)

theorem within_updateWithOutbox_say {now : Datetime} {title : Option Text}
    {status : ConversationStatus} {eventId : UUID} {eventType : Text}
    {payload : ConversationEvent} (hstatus : status = .deleted <-> gone) :
    Prog.within batchesFindRows (AllSay cache c gone)
      (ConversationRepository.updateWithOutbox now c title status eventId eventType payload)
      (Found (SaysGone gone)) (fun _ => True) := by
  unfold ConversationRepository.updateWithOutbox
  apply Prog.within_bind
  refine Prog.within_mono within_repositoryGet_say ?_ (fun _ _ => trivial)
  intro found hfound
  cases found with
  | none => exact found_none _
  | some conv =>
      apply Prog.within_bind
      refine Prog.within_mono (within_cqlOptionalText title) ?_ (fun _ _ => trivial)
      intro text _
      apply Prog.within_bind
      refine Prog.within_mono (within_catalogOwner conv) ?_ (fun _ _ => trivial)
      intro owner _
      apply Prog.within_bind
      refine Prog.within_mono (within_say ⟨rfl, hstatus⟩) ?_ (fun _ _ => trivial)
      intro _ _
      exact found_some hstatus

theorem within_updateThrough {reads : ConversationReadings} {title : Option Text}
    {status : ConversationStatus} {event : ConversationEvent}
    (hstatus : status = .deleted <-> gone) :
    Prog.within batchesFindRows (AllSay cache c gone)
      (ConversationWrites.updateThrough cache reads c title status event)
      (fun _ => True) (fun _ => True) := by
  unfold ConversationWrites.updateThrough
  apply Prog.within_bind
  refine Prog.within_mono (within_updateWithOutbox_say hstatus) ?_ (fun _ _ => trivial)
  intro updated hupdated
  cases updated with
  | none => trivial
  | some conv =>
      apply Prog.within_bind
      have hput : Prog.within batchesFindRows (AllSay cache c gone)
          (ConversationWrites.forCache cache (fun cache => cache.setConversation conv))
          (fun _ => True) (fun _ => True) := by
        unfold ConversationWrites.forCache
        cases cache with
        | none => trivial
        | some cache' => exact within_setConversation_say (hupdated conv rfl)
      exact Prog.within_mono hput (fun _ _ => trivial) (fun _ _ => trivial)

theorem within_rename (reads : ConversationReadings) (newTitle : Text) :
    Prog.within batchesFindRows (AllSay cache c gone)
      (ConversationWrites.rename cache reads c newTitle) (fun _ => True)
      (fun _ => True) := by
  unfold ConversationWrites.rename
  apply Prog.within_bind
  refine Prog.within_mono within_get_say ?_ (fun _ _ => trivial)
  intro found hfound
  cases found with
  | none => trivial
  | some conv => exact within_updateThrough (hfound conv rfl)

theorem within_archive (reads : ConversationReadings) (hgone : ¬gone) :
    Prog.within batchesFindRows (AllSay cache c gone)
      (ConversationWrites.archive cache reads c) (fun _ => True) (fun _ => True) := by
  unfold ConversationWrites.archive
  apply Prog.within_bind
  refine Prog.within_mono within_get_say ?_ (fun _ _ => trivial)
  intro found _
  cases found with
  | none => trivial
  | some conv =>
      apply within_updateThrough
      constructor
      · intro h
        cases h
      · intro h
        exact absurd h hgone

theorem within_setTitle (now : Datetime) (title : Json) :
    Prog.within batchesFindRows (AllSay cache c gone)
      (ConversationWrites.setTitle cache now c title) (fun _ => True) (fun _ => True) := by
  unfold ConversationWrites.setTitle ConversationRepository.updateTitle
  apply Prog.within_bind
  apply Prog.within_bind
  refine Prog.within_mono within_repositoryGet_say ?_ (fun _ _ => trivial)
  intro found hfound
  cases found with
  | none => trivial
  | some conv =>
      apply Prog.within_bind
      refine Prog.within_mono (within_cqlNullableText title) ?_ (fun _ _ => trivial)
      intro text _
      apply Prog.within_bind
      refine Prog.within_mono (within_catalogOwner conv) ?_ (fun _ _ => trivial)
      intro owner _
      apply Prog.within_bind
      refine Prog.within_mono (within_say ⟨rfl, hfound conv rfl⟩) ?_ (fun _ _ => trivial)
      intro _ _
      apply Prog.within_bind
      exact Prog.within_mono (within_evict_say cache) (fun _ _ => trivial)
        (fun _ _ => trivial)

end Within

/-!
# The deletion
-/

section Deletion

variable {cache : Option CacheService} {c : UUID}

theorem wpAmid_evict_say {s : Store} (hs : TablesSay c True s) :
    Prog.wpAmid batchesFindRows
      (ConversationWrites.forCache cache (fun cache => cache.deleteConversation c))
      (fun _ t => AllSay cache c True t) (fun _ _ => False) s := by
  unfold ConversationWrites.forCache
  cases cache with
  | none =>
      refine ⟨hs, ?_⟩
      intro conv hconv
      cases hconv
  | some cache =>
      dsimp only
      unfold CacheService.deleteConversation
      split
      · rw [Prog.wpAmid_tryCatch]
        apply Prog.wpAmid_perform tablesSay_elapsed hs
        · intro t ht hallows
          refine ⟨tablesSay_exec ht trivial hallows, ?_⟩
          intro conv hconv
          have hnone : ((Op.deleteConversation c).exec t).2.conversationCache c = none := by
            simp [Op.exec, Store.setConversationCache]
          change cachedConversation (some cache) ((Op.deleteConversation c).exec t).2 c = _
            at hconv
          rw [cachedConversation_of_none _ hnone] at hconv
          cases hconv
        · intro t _ hfail
          exact hfail.elim
      · rename_i hredis
        refine ⟨hs, ?_⟩
        intro conv hconv
        unfold cachedConversation at hconv
        dsimp only at hconv
        rw [if_neg hredis] at hconv
        cases hconv

theorem wpAmid_delete_say (reads : ConversationReadings) {s : Store}
    (hs : Settled cache c s) :
    Prog.wpAmid batchesFindRows (ConversationWrites.delete cache reads c)
      (fun _ t => Settled cache c t) (fun _ t => Settled cache c t) s := by
  rcases hs with ⟨gone, hs⟩
  unfold ConversationWrites.delete ConversationRepository.deleteWithOutbox
  rw [Prog.wpAmid_bind]
  refine Prog.wpAmid_mono
    (Prog.wpAmid_of_within allSay_elapsed within_get_say hs) ?_
    (fun _ t ht => ⟨gone, ht.left⟩)
  intro found t ht
  cases found with
  | none => exact ⟨gone, ht.left⟩
  | some conv =>
      dsimp only
      rw [Prog.wpAmid_bind, Prog.wpAmid_bind]
      refine Prog.wpAmid_mono
        (Prog.wpAmid_of_within allSay_elapsed within_repositoryGet_say ht.left) ?_
        (fun _ t ht => ⟨gone, ht.left⟩)
      intro stored t ht
      cases stored with
      | none => exact ⟨gone, ht.left⟩
      | some stored =>
          dsimp only
          unfold ConversationRepository.updateWithOutbox
          rw [Prog.wpAmid_bind, Prog.wpAmid_bind]
          refine Prog.wpAmid_mono
            (Prog.wpAmid_of_within allSay_elapsed within_repositoryGet_say ht.left) ?_
            (fun _ t ht => ⟨gone, ht.left⟩)
          intro again t ht
          cases again with
          | none => exact ⟨gone, ht.left⟩
          | some again =>
              dsimp only
              rw [Prog.wpAmid_bind]
              refine Prog.wpAmid_mono
                (Prog.wpAmid_of_within allSay_elapsed (within_cqlOptionalText _) ht.left) ?_
                (fun _ t ht => ⟨gone, ht.left⟩)
              intro text t ht
              rw [Prog.wpAmid_bind]
              refine Prog.wpAmid_mono
                (Prog.wpAmid_of_within allSay_elapsed (within_catalogOwner _) ht.left) ?_
                (fun _ t ht => ⟨gone, ht.left⟩)
              intro owner t ht
              rw [Prog.wpAmid_bind]
              refine Prog.wpAmid_perform allSay_elapsed ht.left ?_
                (fun t ht _ => ⟨gone, ht⟩)
              -- the batch: from here on the tables say that it is deleted
              intro t ht hallows
              rw [Prog.wpAmid_pure, Prog.wpAmid_pure]
              dsimp only [Option.isSome]
              rw [if_pos rfl, Prog.wpAmid_bind]
              refine Prog.wpAmid_mono (wpAmid_evict_say ?_) ?_ (fun _ _ h => h.elim)
              · exact tablesSay_update ht.tables.placed hallows (iff_of_true rfl trivial)
              · intro _ u hu
                exact ⟨True, hu⟩

/-- The operation writes no table, or it deletes the conversation. -/
def Op.Deletes (c : UUID) : Op -> Prop
  | .batchUpdateConversation c' _ _ _ _ _ status _ _ _ _ => c' = c ∧ status = .deleted
  | o => o.tableTarget = none

theorem Op.IsLookup.deletes {o : Op} (ho : o.IsLookup) : o.Deletes c := by
  cases o <;> trivial

theorem onlyOps_deletes_get (cache : Option CacheService) :
    OnlyOps (Op.Deletes c) (ConversationReads.get cache c) :=
  Prog.allOps_mono (onlyLookups_conversationGet cache c) (fun _ ho => ho.deletes)

theorem onlyOps_deletes_repositoryGet :
    OnlyOps (Op.Deletes c) (ConversationRepository.get c) :=
  Prog.allOps_mono (onlyLookups_repositoryGet c) (fun _ ho => ho.deletes)

/-- The only status that a deletion writes is `deleted`. -/
theorem onlyOps_delete (cache : Option CacheService)
    (reads : ConversationReadings) :
    OnlyOps (Op.Deletes c) (ConversationWrites.delete cache reads c) := by
  unfold ConversationWrites.delete
  refine onlyOps_bind (onlyOps_deletes_get cache) ?_
  intro found
  cases found with
  | none => exact onlyOps_ret _
  | some conv =>
      refine onlyOps_bind (onlyOps_bind onlyOps_deletes_repositoryGet ?_) ?_
      · intro stored
        cases stored with
        | none => exact onlyOps_ret _
        | some stored =>
            refine onlyOps_bind (onlyOps_bind onlyOps_deletes_repositoryGet ?_)
              (fun _ => onlyOps_ret _)
            intro again
            cases again with
            | none => exact onlyOps_ret _
            | some again =>
                refine onlyOps_bind (onlyOps_cqlOptionalText _ _) (fun text => ?_)
                refine onlyOps_bind (onlyOps_catalogOwner _ _) (fun owner => ?_)
                refine onlyOps_bind (onlyOps_perform ?_) (fun _ => onlyOps_ret _)
                exact ⟨rfl, rfl⟩
      · intro success
        split
        · exact onlyOps_bind (onlyOps_evict cache rfl) (fun _ => onlyOps_ret _)
        · exact onlyOps_ret _

/-- The tables change their mind one way only. -/
theorem tablesSay_deletes {gone : Prop} {o : Op} {s : Store} (h : TablesSay c gone s)
    (hdeletes : o.Deletes c) (hfinds : o.FindsRow s) :
    TablesSay c gone (o.exec s).2 ∨ TablesSay c True (o.exec s).2 := by
  cases o with
  | batchUpdateConversation c' user old new title createdAt status parent bucket eventId
      event =>
      rcases hdeletes with ⟨rfl, rfl⟩
      exact Or.inr (tablesSay_update h.placed hfinds (iff_of_true rfl trivial))
  | batchUpdateTitle _ _ _ _ _ _ _ _ => cases hdeletes
  | batchCreateConversation _ _ _ _ _ _ _ _ _ _ => cases hdeletes
  | batchHardDelete _ _ _ => cases hdeletes
  | _ => exact Or.inl (tablesSay_exec h trivial hfinds)

end Deletion

/-!
# Runs

The calls on one conversation, in any number of processes.
-/

/-- The conversation on which a call works. -/
def ConversationCall.target : ConversationCall -> Option UUID
  | .create _ _ _ _ _ _ => none
  | .get c => some c
  | .rename _ c _ => some c
  | .archive _ c => some c
  | .delete _ c => some c
  | .setTitle _ c _ => some c

def ConversationCall.IsDelete : ConversationCall -> Prop
  | .delete _ _ => True
  | _ => False

def ConversationCall.IsArchive : ConversationCall -> Prop
  | .archive _ _ => True
  | _ => False

abbrev ConversationPool : Type := Pool ConversationCall storage PyExc Unit Store

abbrev ConversationTask : Type := Task ConversationCall storage PyExc Unit

def IsDeleting (c : ConversationPool) : Prop :=
  exists t, t ∈ c.tasks ∧ t.prog.Running ∧ t.call.IsDelete

/--
A deletion starts when no call is running, other calls when no deletion is, and
archiving when the conversation is not deleted.
-/
structure MayStart (c : UUID) (pool : ConversationPool) (call : ConversationCall) :
    Prop where
  target : call.target = some c
  delete : call.IsDelete -> pool.Quiet
  other : ¬call.IsDelete -> ¬IsDeleting pool
  archive : call.IsArchive -> ¬pool.store.IsDeleted c

/-- A deletion does not stop in its middle. -/
def separated (cache : Option CacheService) (c : UUID) :
    Rules ConversationCall storage PyExc Unit Store :=
  { machine := storageMachine
    program := ConversationCall.program cache
    permits := onNext (fun s o => o.FindsRow s)
    mayFail := Op.IsNoEviction
    mayStart := MayStart c
    mayStop := fun call => ¬call.IsDelete
    moves := Elapsed }

section Runs

variable {cache : Option CacheService} {c : UUID}

/-- What is known of a running call. -/
def KnowsStatus (cache : Option CacheService) (c : UUID) (s : Store)
    (t : ConversationTask) : Prop :=
  t.prog.Running ->
    (t.call.IsDelete -> OnlyOps (Op.Deletes c) t.prog ∧
      Prog.wpAmid batchesFindRows t.prog (fun _ u => Settled cache c u)
        (fun _ u => Settled cache c u) s) ∧
    (¬t.call.IsDelete -> exists gone, AllSay cache c gone s ∧
      Prog.within batchesFindRows (AllSay cache c gone) t.prog (fun _ => True)
        (fun _ => True))

/-- Two running calls, neither of which is a deletion. -/
def BothOther (p q : ConversationTask) : Prop :=
  p.prog.Running -> q.prog.Running -> ¬p.call.IsDelete ∧ ¬q.call.IsDelete

/-- Unless a deletion is running, cache and tables agree. -/
structure StatusKnown (cache : Option CacheService) (c : UUID) (pool : ConversationPool) :
    Prop where
  settled : IsDeleting pool ∨ Settled cache c pool.store
  tables : exists gone, TablesSay c gone pool.store

theorem settled_of_ended {p : Py Unit} {s : Store} (hended : ¬p.Running)
    (h : Prog.wpAmid batchesFindRows p (fun _ u => Settled cache c u)
      (fun _ u => Settled cache c u) s) : Settled cache c s := by
  cases p with
  | ret a => exact h
  | raise e => exact h
  | op o next => exact absurd trivial hended

theorem knowsStatus_start {pool : ConversationPool} {call : ConversationCall}
    (hsettled : Settled cache c pool.store) (hstart : MayStart c pool call) :
    KnowsStatus cache c pool.store ⟨call, call.program cache⟩ := by
  intro _
  constructor
  · intro hdelete
    cases call with
    | delete reads c' =>
        have htarget : some c' = some c := hstart.target
        cases htarget
        refine ⟨onlyOps_bind (onlyOps_delete cache reads) (fun _ => onlyOps_ret _), ?_⟩
        show Prog.wpAmid batchesFindRows (ignoreResult _) _ _ _
        unfold ignoreResult
        rw [Prog.wpAmid_bind]
        exact wpAmid_delete_say reads hsettled
    | _ => exact hdelete.elim
  · intro hother
    rcases hsettled with ⟨gone, hsay⟩
    refine ⟨gone, hsay, ?_⟩
    have htarget := hstart.target
    cases call with
    | create _ _ _ _ _ _ => cases htarget
    | get c' =>
        cases htarget
        exact within_ignoreResult within_get_say
    | rename reads c' newTitle =>
        cases htarget
        exact within_ignoreResult (within_rename reads newTitle)
    | archive reads c' =>
        cases htarget
        apply within_ignoreResult (within_archive reads ?_)
        rw [← hsay.tables.row]
        exact hstart.archive trivial
    | delete _ _ => exact absurd trivial hother
    | setTitle now c' title =>
        cases htarget
        exact within_ignoreResult (within_setTitle now title)

theorem status_own {before after : List ConversationTask} {call : ConversationCall}
    {o : Op} {next : Option o.Res -> Py Unit} {s : Store}
    (h : Pool.Holds (StatusKnown cache c) (KnowsStatus cache c) BothOther
      ⟨s, before ++ ⟨call, .op o next⟩ :: after⟩)
    (hfinds : o.FindsRow s) :
    StatusKnown cache c
      ⟨(o.exec s).2, before ++ ⟨call, next (some (o.exec s).1)⟩ :: after⟩ ∧
    KnowsStatus cache c (o.exec s).2 ⟨call, next (some (o.exec s).1)⟩ := by
  have htask := h.each ⟨call, .op o next⟩ (by simp) trivial
  rcases h.shared.tables with ⟨gone, htables⟩
  by_cases hdelete : call.IsDelete
  · rcases htask.left hdelete with ⟨honly, hwp⟩
    have hafter := (hwp s Relation.ReflTransGen.refl).left hfinds
    constructor
    · constructor
      · by_cases hrunning : (next (some (o.exec s).1)).Running
        · exact Or.inl ⟨⟨call, next (some (o.exec s).1)⟩, by simp, hrunning, hdelete⟩
        · exact Or.inr (settled_of_ended hrunning hafter)
      · rcases tablesSay_deletes htables honly.left hfinds with hsame | hgone
        · exact ⟨gone, hsame⟩
        · exact ⟨True, hgone⟩
    · intro _
      exact ⟨fun _ => ⟨honly.right _, hafter⟩, fun hother => absurd hdelete hother⟩
  · rcases htask.right hdelete with ⟨gone', hsay, hwithin⟩
    rcases (hwithin s hsay).left hfinds with ⟨hkeep, hnext⟩
    refine ⟨⟨Or.inr ⟨gone', hkeep⟩, ⟨gone', hkeep.tables⟩⟩, ?_⟩
    intro _
    exact ⟨fun hdelete' => absurd hdelete' hdelete, fun _ => ⟨gone', hkeep, hnext⟩⟩

theorem status_ownFault {before after : List ConversationTask} {call : ConversationCall}
    {o : Op} {next : Option o.Res -> Py Unit} {s : Store}
    (h : Pool.Holds (StatusKnown cache c) (KnowsStatus cache c) BothOther
      ⟨s, before ++ ⟨call, .op o next⟩ :: after⟩)
    (hfail : o.IsNoEviction) :
    StatusKnown cache c ⟨s, before ++ ⟨call, next none⟩ :: after⟩ ∧
    KnowsStatus cache c s ⟨call, next none⟩ := by
  have htask := h.each ⟨call, .op o next⟩ (by simp) trivial
  by_cases hdelete : call.IsDelete
  · rcases htask.left hdelete with ⟨honly, hwp⟩
    have hafter := (hwp s Relation.ReflTransGen.refl).right hfail
    refine ⟨⟨?_, h.shared.tables⟩, ?_⟩
    · by_cases hrunning : (next none).Running
      · exact Or.inl ⟨⟨call, next none⟩, by simp, hrunning, hdelete⟩
      · exact Or.inr (settled_of_ended hrunning hafter)
    · intro _
      exact ⟨fun _ => ⟨honly.right _, hafter⟩, fun hother => absurd hdelete hother⟩
  · rcases htask.right hdelete with ⟨gone', hsay, hwithin⟩
    refine ⟨⟨Or.inr ⟨gone', hsay⟩, h.shared.tables⟩, ?_⟩
    intro _
    exact ⟨fun hdelete' => absurd hdelete' hdelete,
      fun _ => ⟨gone', hsay, (hwithin s hsay).right hfail⟩⟩

theorem status_localProof :
    Pool.LocalProof (separated cache c) (StatusKnown cache c) (KnowsStatus cache c)
      BothOther := by
  constructor
  case symm =>
    intro p q h hq hp
    exact (h hp hq).symm
  case own =>
    intro before after call o next s h hpermits
    exact status_own h hpermits
  case ownFault =>
    intro before after call o next s h hfail
    exact status_ownFault h hfail
  case stable =>
    intro pool call o next q h hmem hpermits hq hapart hrunning
    rcases hapart trivial hrunning with ⟨hcall, hqcall⟩
    refine ⟨fun hdelete => absurd hdelete hqcall, fun _ => ?_⟩
    rcases ((h.each _ hmem) trivial).right hcall with ⟨gone, hsay, hwithin⟩
    rcases ((h.each _ hq) hrunning).right hqcall with ⟨gone', hsay', hwithin'⟩
    have hsame : gone = gone' := propext (hsay.tables.row.symm.trans hsay'.tables.row)
    subst hsame
    exact ⟨gone, ((hwithin _ hsay).left hpermits).left, hwithin'⟩
  case apartNext =>
    intro pool call o next q _ _ _ _ hapart _ hq
    exact hapart trivial hq
  case apartFault =>
    intro pool call o next q _ _ _ _ hapart _ hq
    exact hapart trivial hq
  case stopped =>
    intro before after call o next s h hstop _
    refine ⟨?_, h.shared.tables⟩
    rcases h.shared.settled with ⟨t, ht, hrunning, hdelete⟩ | hsettled
    · left
      rcases Pool.mem_replace ht with rfl | hother
      · exact absurd hdelete hstop
      · exact ⟨t, hother, hrunning, hdelete⟩
    · exact Or.inr hsettled
  case started =>
    intro pool call h hstart
    have hsettled : Settled cache c pool.store := by
      rcases h.shared.settled with hdeleting | hsettled
      · by_cases hdelete : call.IsDelete
        · rcases hdeleting with ⟨t, ht, hrunning, _⟩
          exact absurd hrunning (hstart.delete hdelete t ht)
        · exact absurd hdeleting (hstart.other hdelete)
      · exact hsettled
    refine ⟨⟨Or.inr hsettled, h.shared.tables⟩, knowsStatus_start hsettled hstart, ?_⟩
    intro q hq hrunning _
    by_cases hdelete : call.IsDelete
    · exact absurd hrunning (hstart.delete hdelete q hq)
    · refine ⟨fun hqdelete => ?_, hdelete⟩
      exact hstart.other hdelete ⟨q, hq, hrunning, hqdelete⟩
  case moved =>
    intro tasks s t h helapsed
    constructor
    · rcases h.shared.tables with ⟨gone, htables⟩
      refine ⟨?_, gone, tablesSay_elapsed s t helapsed htables⟩
      rcases h.shared.settled with hdeleting | hsettled
      · exact Or.inl hdeleting
      · exact Or.inr (settled_elapsed s t helapsed hsettled)
    · intro q hq hrunning
      rcases h.each q hq hrunning with ⟨hdelete, hother⟩
      constructor
      · intro hcall
        rcases hdelete hcall with ⟨honly, hwp⟩
        exact ⟨honly, Prog.wpAmid_move (fun _ => settled_elapsed)
          (fun _ => settled_elapsed) helapsed hwp⟩
      · intro hcall
        rcases hother hcall with ⟨gone, hsay, hwithin⟩
        exact ⟨gone, allSay_elapsed s t helapsed hsay, hwithin⟩

/-- No step of such a pool brings a deleted conversation back. -/
theorem deleted_step {d e : ConversationPool}
    (h : Pool.Holds (StatusKnown cache c) (KnowsStatus cache c) BothOther d)
    (hstep : Pool.Step (separated cache c) d e) (hdeleted : d.store.IsDeleted c) :
    e.store.IsDeleted c := by
  cases hstep with
  | perform before after call o next s hfinds =>
      have htask := h.each ⟨call, .op o next⟩ (by simp) trivial
      by_cases hdelete : call.IsDelete
      · rcases h.shared.tables with ⟨gone, htables⟩
        have hgone := htables.row.mp hdeleted
        rcases tablesSay_deletes htables (htask.left hdelete).left.left hfinds with
          hsame | hnew
        · exact hsame.row.mpr hgone
        · exact hnew.row.mpr trivial
      · rcases htask.right hdelete with ⟨gone, hsay, hwithin⟩
        have hkeep := ((hwithin s hsay).left hfinds).left
        exact hkeep.tables.row.mpr (hsay.tables.row.mp hdeleted)
  | fault before after call o next s hfail => exact hdeleted
  | stop before after call o next s _ _ => exact hdeleted
  | start tasks call s hstart => exact hdeleted
  | move tasks s t helapsed =>
      have hrows : t.conversations = s.conversations := by
        have hrest := Elapsed.rest helapsed
        rw [hrest]
      unfold Store.IsDeleted
      rw [hrows]
      exact hdeleted

end Runs

theorem list_omits {c : UUID} {s t : Store} (h : TablesSay c True s) {user : UUID}
    {limit : Nat} {cursor : Option Datetime} {convs : List Conversation}
    (hfin : Prog.Finishes storageMachine noFault
      (ConversationRepository.list user limit cursor) s (.ok convs) t) :
    forall conv, conv ∈ convs -> conv.conversationId ≠ c := by
  intro conv hconv hc
  rw [list_finishes hfin] at hconv
  rcases List.mem_filterMap.mp hconv with ⟨entry, hentry, hlisted⟩
  rcases listedConversation_eq_some hlisted with ⟨hlive, hid, _⟩
  have hmem := (selectCatalog_sublist user limit cursor s).subset hentry
  have hget := (Partition.get_eq_some_iff _ entry.1 entry.2).mpr hmem
  exact hlive (h.listed trivial user entry.1 entry.2 hget (hid.symm.trans hc))

/-- Kept apart from its deletion, the calls on a deleted conversation leave it deleted. -/
theorem deleted_stays {cache : Option CacheService} {c : UUID} {s : Store}
    (hs : Settled cache c s) {d e : ConversationPool}
    (hreach : Pool.Reaches (separated cache c) (startingFrom s) d)
    (hdeleted : d.store.IsDeleted c) (hlater : Pool.Reaches (separated cache c) d e) :
    e.store.IsDeleted c ∧
    forall user limit cursor convs t,
      Prog.Finishes storageMachine noFault (ConversationRepository.list user limit cursor)
        e.store (.ok convs) t ->
      forall conv, conv ∈ convs -> conv.conversationId ≠ c := by
  have hstart : Pool.Holds (StatusKnown cache c) (KnowsStatus cache c) BothOther
      (startingFrom s) := by
    refine ⟨⟨Or.inr hs, ?_⟩, fun t ht => (List.not_mem_nil ht).elim, List.Pairwise.nil⟩
    rcases hs with ⟨gone, hsay⟩
    exact ⟨gone, hsay.tables⟩
  have hholds := Pool.holds_reaches status_localProof hreach hstart
  have hend : Pool.Holds (StatusKnown cache c) (KnowsStatus cache c) BothOther e ∧
      e.store.IsDeleted c := by
    induction hlater with
    | refl => exact ⟨hholds, hdeleted⟩
    | tail _ hstep ih =>
        exact ⟨Pool.holds_step status_localProof hstep ih.left,
          deleted_step ih.left hstep ih.right⟩
  rcases hend.left.shared.tables with ⟨gone, htables⟩
  have hgone : gone = True := eq_true (htables.row.mp hend.right)
  subst hgone
  refine ⟨hend.right, ?_⟩
  intro user limit cursor convs t hfin
  exact list_omits htables hfin

/-!
# Deletions that are not kept apart
-/

def storeWithStatus (status : ConversationStatus) : Store :=
  (Store.blank.setConversationRow (.ofInt 1) (some
    { userId := some (.ofInt 2), title := some (text "A"), createdAt := some ⟨1000, false⟩,
      updatedAt := some ⟨1000, false⟩, status := some status, parentConversationId := none,
      branchMessageId := none })).setCatalog (.ofInt 2)
        (Partition.empty.upsert (Store.catalogKey ⟨1000, false⟩ (.ofInt 1))
          (fun _ => ⟨some (text "A"), some ⟨1000, false⟩, status, none⟩))

theorem settled_storeWithStatus (cache : Option CacheService)
    (status : ConversationStatus) :
    Settled cache (.ofInt 1) (storeWithStatus status) := by
  have hentry : forall {user : UUID} {k : CatalogKey} {entry : CatalogRow},
      ((storeWithStatus status).catalog user).get k = some entry ->
      user = .ofInt 2 ∧ k = Store.catalogKey ⟨1000, false⟩ (.ofInt 1) ∧
        entry.status = status := by
    intro user k entry hget
    unfold storeWithStatus at hget
    rw [catalog_setCatalog] at hget
    split at hget
    · rename_i huser
      rw [Partition.get_upsert] at hget
      split at hget
      · rename_i hkey
        cases hget
        exact ⟨huser, hkey, rfl⟩
      · cases hget
    · cases hget
  refine ⟨status = .deleted, ⟨?_, ?_, ?_⟩, ?_⟩
  · constructor
    · intro h
      rcases h with ⟨row, hrow, hdeleted⟩
      cases hrow
      exact Option.some.inj hdeleted
    · intro h
      exact ⟨_, rfl, congrArg some h⟩
  · intro user k entry hget _
    rcases hentry hget with ⟨rfl, hkey, _⟩
    exact ⟨_, _, rfl, ⟨rfl, rfl⟩, hkey⟩
  · intro hdeleted user k entry hget _
    rw [(hentry hget).right.right]
    exact hdeleted
  · intro conv hconv
    rw [cachedConversation_of_none cache rfl] at hconv
    cases hconv

/-- A title that arrives for a deleted conversation. -/
def titleAct : Pool.Act ConversationCall :=
  .start (.setTitle ⟨2000, true⟩ (.ofInt 1) (.str (text "B")))

/-- The title is written, and the conversation stays deleted. -/
theorem deleted_stays_titled :
    (([titleAct, .perform 0, .perform 0, .perform 0].foldl
      (Pool.play (separated (some ⟨true⟩) (.ofInt 1)))
      (startingFrom (storeWithStatus .deleted))).store).IsDeleted (.ofInt 1) := by
  refine (deleted_stays (settled_storeWithStatus (some ⟨true⟩) .deleted)
    Relation.ReflTransGen.refl ⟨_, rfl, rfl⟩ (Pool.reaches_schedule ?_)).left
  refine ⟨⟨rfl, fun h => h.elim, fun _ h => ?_, fun h => h.elim⟩, ?_, ?_, ?_, trivial⟩
  · rcases h with ⟨t, ht, _⟩
    cases ht
  · intro t ht
    cases ht
    trivial
  · intro t ht
    cases ht
    exact ⟨_, rfl, rfl, rfl⟩
  · intro t ht
    cases ht
    trivial

/-- The calls on a conversation, in any order and interleaving. -/
def unseparated (cache : Option CacheService) (c : UUID) :
    Rules ConversationCall storage PyExc Unit Store :=
  interleaving (ConversationCall.program cache) (fun _ _ => True)
    (fun _ call => call.target = some c)

theorem reaches_unseparated {cache : Option CacheService} {c : UUID}
    (pool : ConversationPool) (acts : List (Pool.Act ConversationCall))
    (h : forall act, act ∈ acts -> (exists i, act = .perform i) ∨
      exists call, act = .start call ∧ call.target = some c) :
    Pool.Reaches (unseparated cache c) pool
      (acts.foldl (Pool.play (unseparated cache c)) pool) := by
  apply Pool.reaches_schedule
  apply Pool.allowsAll_of_forall
  intro act hact c'
  rcases h act hact with ⟨i, rfl⟩ | ⟨call, rfl, hcall⟩
  · exact fun _ _ => trivial
  · exact hcall

def deleteActs : List (Pool.Act ConversationCall) :=
  .start (.delete (.at 2 (.ofInt 3)) (.ofInt 1)) :: List.replicate 8 (.perform 0)

def archiveActs : List (Pool.Act ConversationCall) :=
  .start (.archive (.at 3 (.ofInt 3)) (.ofInt 1)) :: List.replicate 8 (.perform 1)

/-- Archiving a deleted conversation makes an archived one of it. -/
theorem deleted_archived :
    ¬forall (cache : Option CacheService) (c : UUID) (s : Store), Settled cache c s ->
      forall d e : ConversationPool,
        Pool.Reaches (unseparated cache c) (startingFrom s) d ->
        d.store.IsDeleted c -> Pool.Reaches (unseparated cache c) d e ->
        e.store.IsDeleted c := by
  intro h
  let d := deleteActs.foldl (Pool.play (unseparated (some ⟨true⟩) (.ofInt 1)))
    (startingFrom (storeWithStatus .active))
  let e := archiveActs.foldl (Pool.play (unseparated (some ⟨true⟩) (.ofInt 1))) d
  have hd : (d.store.conversations (.ofInt 1)).map ConversationRow.status =
      some (some .deleted) := by
    decide
  have he : (e.store.conversations (.ofInt 1)).map ConversationRow.status =
      some (some .archived) := by
    decide
  have hdeleted : d.store.IsDeleted (.ofInt 1) := by
    rcases Option.map_eq_some_iff.mp hd with ⟨row, hrow, hstatus⟩
    exact ⟨row, hrow, hstatus⟩
  rcases h _ _ _ (settled_storeWithStatus (some ⟨true⟩) .active) d e
    (reaches_unseparated _ deleteActs (by simp [deleteActs, ConversationCall.target]))
    hdeleted
    (reaches_unseparated _ archiveActs (by simp [archiveActs, ConversationCall.target]))
    with
    ⟨row, hrow, hstatus⟩
  rw [hrow, Option.map_some, hstatus] at he
  cases he

end ConversationService
