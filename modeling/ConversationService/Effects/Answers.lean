import ConversationService.Effects.Inheritance

/-!
# Answers

Without faults a program has one answer. This module relates the answers that a program
gives in two stores which agree on what the program looks at.
-/

namespace ConversationService

open Python Programs

/-- What a program answers when no operation raises. -/
def answerOf {alpha : Type} (p : Py alpha) (s : Store) : Except PyExc alpha :=
  (Prog.run storageMachine (fun _ => false) p s).1

theorem wp_answerOf {alpha : Type} (p : Py alpha) (s : Store) :
    Prog.wp storageMachine noFault p (fun a _ => answerOf p s = .ok a)
      (fun e _ => answerOf p s = .error e) s := by
  apply (Prog.wp_noFault_iff p _ _ s).mpr
  unfold answerOf
  split
  · assumption
  · assumption

theorem answerOf_eq_of_wp {alpha : Type} {p : Py alpha} {s : Store}
    {answer : Except PyExc alpha}
    (h : Prog.wp storageMachine noFault p (fun a _ => answer = .ok a)
      (fun e _ => answer = .error e) s) : answerOf p s = answer := by
  have hrun := (Prog.wp_noFault_iff p _ _ s).mp h
  unfold answerOf
  split at hrun
  · rename_i a t heq
    rw [heq, hrun]
  · rename_i e t heq
    rw [heq, hrun]

/-!
# Preferences
-/

structure SamePreferences (s t : Store) : Prop where
  preferences : t.preferences = s.preferences
  customModes : t.customModes = s.customModes

def Op.ReadsPreferences : Op -> Prop
  | .selectPreferences _ => True
  | .selectCustomMode _ _ => True
  | _ => False

theorem answerOf_resolvePreferences (svc : MessageService) (userId : Option UUID)
    (mode : Option Text) (selectedTools : Option (List Text)) {s t : Store}
    (h : SamePreferences s t) :
    answerOf (svc.resolvePreferences userId mode selectedTools) s =
      answerOf (svc.resolvePreferences userId mode selectedTools) t := by
  apply Prog.run_congr (P := Op.ReadsPreferences) (R := SamePreferences) _ _ _ h
  · exact MessageService.onlyOps_resolvePreferences (fun _ => trivial)
      (fun _ _ => trivial) _ _ _ _
  · intro o u v ho huv
    cases o with
    | selectPreferences user =>
        refine ⟨?_, huv⟩
        show u.preferences user = v.preferences user
        rw [huv.preferences]
    | selectCustomMode owner ref =>
        refine ⟨?_, huv⟩
        show (u.customModes owner ref).filter _ = (v.customModes owner ref).filter _
        rw [huv.customModes]
    | _ => exact ho.elim

/-!
# Paging
-/

/-- Paging keeps every source of the context and of the preferences. -/
structure SameInputs (s t : Store) : Prop extends SameCore s t where
  conversationCache : t.conversationCache = s.conversationCache

theorem SameInputs.found {s t : Store} (h : SameInputs s t)
    (cache : Option CacheService) : SameSources cache s t := by
  refine ⟨h.messages, ?_⟩
  intro c
  unfold findConversation cachedConversation storedConversation
  rw [h.conversationCache, h.conversations]

theorem sameInputs_exec {c : UUID} {o : Op} (ho : o.IsPaging c) (s : Store) :
    SameInputs s (o.exec s).2 := by
  refine ⟨sameCore_exec ho.isRead.isTraffic s, ?_⟩
  cases o with
  | hsetConversation _ _ => exact ho.elim
  | deleteConversation _ => exact ho.elim
  | _ => rfl

theorem wp_paging {alpha : Type} {c : UUID} {p : Py alpha}
    (hp : OnlyOps (Op.IsPaging c) p) {mayFail : Op -> Prop}
    {Q : alpha -> Store -> Prop} {E : PyExc -> Store -> Prop} {s : Store}
    (hQ : forall a t, SameInputs s t -> Q a t)
    (hE : forall e t, SameInputs s t -> E e t) :
    Prog.wp storageMachine mayFail p Q E s := by
  have hkeep : forall o t, Op.IsPaging c o -> SameInputs s t ->
      SameInputs s (storageMachine.exec o t).2 := by
    intro o t ho hst
    have hstep := sameInputs_exec ho t
    refine ⟨hst.toSameCore.trans hstep.toSameCore, ?_⟩
    rw [storageMachine_exec, hstep.conversationCache, hst.conversationCache]
  have hpaging : Prog.wp storageMachine mayFail p (fun _ t => SameInputs s t)
      (fun _ t => SameInputs s t) s :=
    Prog.wp_of_allOps hp hkeep ⟨SameCore.refl s, rfl⟩
  exact Prog.wp_mono hpaging hQ hE

end ConversationService
