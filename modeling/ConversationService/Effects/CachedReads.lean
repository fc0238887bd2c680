import ConversationService.Library.Interference
import ConversationService.Effects.Inheritance
import ConversationService.Model.ConversationService

/-!
# Reading conversations within an invariant

What a conversation that is read through the cache or from the table is known to
satisfy while an invariant is kept that says so of both, and how the small programs
around the batches behave.
-/

namespace ConversationService

open Python Programs

def amid (mayFail : Op -> Prop) (allows : Store -> Op -> Prop)
    (moves : Store -> Store -> Prop) : Surroundings storage Store :=
  { machine := storageMachine
    mayFail := mayFail
    allows := allows
    moves := moves }

/-- Every conversation under the key, in the cache or in the table, satisfies `P`. -/
structure ReadsAs (K : Store -> Prop) (cache : Option CacheService) (c : UUID)
    (P : Conversation -> Prop) : Prop where
  cached : forall s conv, K s -> cachedConversation cache s c = some conv -> P conv
  stored : forall s conv, K s -> storedConversation s c = some (some conv) -> P conv

/-- A found conversation satisfies `P`. -/
def Found (P : Conversation -> Prop) (found : Option Conversation) : Prop :=
  forall conv, found = some conv -> P conv

theorem found_none (P : Conversation -> Prop) : Found P none := by
  intro conv h
  cases h

theorem found_some {P : Conversation -> Prop} {conv : Conversation} (h : P conv) :
    Found P (some conv) := by
  intro conv' hconv
  cases hconv
  exact h

theorem cachedConversation_of_none (cache : Option CacheService) {s : Store} {c : UUID}
    (h : s.conversationCache c = none) : cachedConversation cache s c = none := by
  unfold cachedConversation
  cases cache with
  | none => rfl
  | some cache =>
      dsimp only
      rw [h]
      split
      · rfl
      · rfl

section Within

variable {mayFail : Op -> Prop} {allows : Store -> Op -> Prop}
  {moves : Store -> Store -> Prop} {K : Store -> Prop} {cache : Option CacheService}
  {c : UUID} {P : Conversation -> Prop}

theorem within_perform {o : Op} {Q : o.Res -> Prop}
    (hkeep : forall s, K s -> allows s o -> K (o.exec s).2)
    (hQ : forall s, K s -> Q (o.exec s).1) :
    Prog.within (amid mayFail allows moves) K (perform o) Q (fun _ => True) :=
  Prog.within_perform hkeep hQ trivial

theorem within_getCached (h : ReadsAs K cache c P) :
    Prog.within (amid mayFail allows moves) K (ConversationReads.getCached cache c)
      (Found P) (fun _ => True) := by
  unfold ConversationReads.getCached
  cases cache with
  | none => exact found_none P
  | some cache =>
      dsimp only
      unfold CacheService.getConversation
      split
      · rename_i hredis
        apply Prog.within_tryCatch
        apply Prog.within_bind
        have hread : Prog.within (amid mayFail allows moves) K
            (perform (.hgetConversation c))
            (fun r => forall conv, r = some conv -> conv.userId.isSome = true -> P conv)
            (fun _ => True) := by
          refine within_perform (fun _ hs _ => hs) ?_
          intro s hs conv hconv howner
          apply h.cached s conv hs
          unfold cachedConversation
          dsimp only
          rw [if_pos hredis]
          exact Option.filter_eq_some_iff.mpr ⟨hconv, howner⟩
        refine Prog.within_mono hread ?_ (fun _ _ => found_none P)
        intro r hr
        cases r with
        | none => exact found_none P
        | some conv =>
            dsimp only
            split
            · rename_i howner
              exact found_some (hr conv rfl howner)
            · exact found_none P
      · exact found_none P

theorem within_repositoryGet (h : ReadsAs K cache c P) :
    Prog.within (amid mayFail allows moves) K (ConversationRepository.get c)
      (Found (fun conv => P conv ∧ conv.conversationId = c)) (fun _ => True) := by
  unfold ConversationRepository.get
  apply Prog.within_bind
  have hread : Prog.within (amid mayFail allows moves) K (perform (.selectConversation c))
      (fun r => forall row conv, r = some row ->
        ConversationRepository.conversationOfRow? c row = some conv -> P conv)
      (fun _ => True) := by
    refine within_perform (fun _ hs _ => hs) ?_
    intro s hs row conv hrow hconv
    apply h.stored s conv hs
    unfold storedConversation
    have hrow' : s.conversations c = some row := hrow
    rw [hrow']
    exact Option.map_eq_some_iff.mpr ⟨conv, hconv, rfl⟩
  refine Prog.within_mono hread ?_ (fun _ _ => trivial)
  intro r hr
  cases r with
  | none => exact found_none _
  | some row =>
      dsimp only
      split
      · rename_i conv hconv
        refine found_some ⟨hr row conv rfl hconv, ?_⟩
        rcases Option.map_eq_some_iff.mp hconv with ⟨status, _, rfl⟩
        rfl
      · trivial

theorem within_setConversation {cache' : CacheService} {conv : Conversation}
    (hset : CacheService.isCacheable conv = true -> forall s, K s ->
      allows s (.hsetConversation conv.conversationId conv) ->
      K ((Op.hsetConversation conv.conversationId conv).exec s).2) :
    Prog.within (amid mayFail allows moves) K (cache'.setConversation conv)
      (fun _ => True) (fun _ => True) := by
  unfold CacheService.setConversation
  split
  · apply Prog.within_tryCatch
    split
    · rename_i hcacheable
      apply Prog.within_bind
      have hput : Prog.within (amid mayFail allows moves) K
          (perform (.hsetConversation conv.conversationId conv)) (fun _ => True)
          (fun _ => True) :=
        within_perform (hset hcacheable) (fun _ _ => trivial)
      refine Prog.within_mono hput ?_ (fun _ _ => trivial)
      intro _ _
      exact within_perform (fun _ hs _ => hs) (fun _ _ => trivial)
    · trivial
  · trivial

theorem within_conversationGet (h : ReadsAs K cache c P)
    (hset : forall conv s, P conv -> conv.conversationId = c ->
      CacheService.isCacheable conv = true -> K s -> allows s (.hsetConversation c conv) ->
      K ((Op.hsetConversation c conv).exec s).2) :
    Prog.within (amid mayFail allows moves) K (ConversationReads.get cache c) (Found P)
      (fun _ => True) := by
  unfold ConversationReads.get
  apply Prog.within_bind
  refine Prog.within_mono (within_getCached h) ?_ (fun _ _ => trivial)
  intro cached hcached
  cases cached with
  | some conv => exact hcached
  | none =>
      apply Prog.within_bind
      refine Prog.within_mono (within_repositoryGet h) ?_ (fun _ _ => trivial)
      intro stored hstored
      have hfound : Found P stored := fun conv hconv => (hstored conv hconv).left
      split
      · rename_i conv cache'
        rcases hstored conv rfl with ⟨hP, hkey⟩
        apply Prog.within_bind
        refine Prog.within_mono (within_setConversation ?_) ?_ (fun _ _ => trivial)
        · rw [hkey]
          exact fun hcacheable s => hset conv s hP hkey hcacheable
        · intro _ _
          exact hfound
      · exact hfound

theorem within_cqlText (value : Json) :
    Prog.within (amid mayFail allows moves) K (cqlText value) (fun _ => True)
      (fun _ => True) := by
  unfold cqlText
  split
  · split
    · trivial
    · trivial
  · trivial

theorem within_cqlOptionalText (value : Option Text) :
    Prog.within (amid mayFail allows moves) K (cqlOptionalText value)
      (fun text => text.isSome = value.isSome) (fun _ => True) := by
  unfold cqlOptionalText
  split
  · apply Prog.within_bind
    exact Prog.within_mono (within_cqlText _) (fun _ _ => rfl) (fun _ _ => trivial)
  · rfl

theorem within_cqlNullableText (value : Json) :
    Prog.within (amid mayFail allows moves) K (cqlNullableText value) (fun _ => True)
      (fun _ => True) := by
  unfold cqlNullableText
  have hbound : forall text : Option Text, Prog.within (amid mayFail allows moves) K
      (cqlOptionalText text) (fun _ => True) (fun _ => True) :=
    fun text =>
      Prog.within_mono (within_cqlOptionalText text) (fun _ _ => trivial) (fun _ _ => trivial)
  cases value with
  | null => exact hbound none
  | str s => exact hbound (some s)
  | bool _ => trivial
  | int _ => trivial
  | float _ => trivial
  | arr _ => trivial
  | obj _ => trivial

theorem within_catalogOwner (conv : Conversation) :
    Prog.within (amid mayFail allows moves) K (ConversationRepository.catalogOwner conv)
      (fun _ => True) (fun _ => True) := by
  unfold ConversationRepository.catalogOwner
  split
  · trivial
  · trivial

theorem within_evict (cache' : Option CacheService)
    (hdel : forall s, K s -> allows s (.deleteConversation c) ->
      K ((Op.deleteConversation c).exec s).2) :
    Prog.within (amid mayFail allows moves) K
      (ConversationWrites.forCache cache' (fun cache => cache.deleteConversation c))
      (fun _ => True) (fun _ => True) := by
  unfold ConversationWrites.forCache
  cases cache' with
  | none => trivial
  | some cache' =>
      dsimp only
      unfold CacheService.deleteConversation
      split
      · apply Prog.within_tryCatch
        exact within_perform hdel (fun _ _ => trivial)
      · trivial

theorem within_ignoreResult {alpha : Type} {p : Py alpha} {Q : alpha -> Prop}
    (h : Prog.within (amid mayFail allows moves) K p Q (fun _ => True)) :
    Prog.within (amid mayFail allows moves) K (ignoreResult p) (fun _ => True)
      (fun _ => True) := by
  apply Prog.within_bind
  exact Prog.within_mono h (fun _ _ => trivial) (fun _ _ => trivial)

end Within

end ConversationService
