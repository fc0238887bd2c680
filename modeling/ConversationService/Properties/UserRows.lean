import ConversationService.Effects.RowChanges

/-!
# User messages are kept

Five writers share the keys of `messages_by_conversation`, and all of them write
blindly. A user's row survives because replies refuse the ids of other senders,
because the markers that the timeout worker follows belong to assistant rows, and
because generated ids are new.
-/

namespace ConversationService

open Python Programs

variable {d : Deployment} {mayFail : Op -> Prop}

/-- The row of a user's message with its content and files, whatever its status. -/
def HasUserRow (c m : UUID) (content : Text) (fileIds : List UUID) (s : Store) :
    Prop :=
  exists row, s.row c m = some row ∧ row.sender = some .user ∧
    row.content = some content ∧ row.fileIds = fileIds

/-- A call never replaces a user's row, it can only mark it deleted. -/
theorem hasUserRow_call {call : Call} {s t : Store} {c m : UUID} {content : Text}
    {fileIds : List UUID} (hmints : MintsUnused d s call)
    (h : CallEffect d mayFail call s t) (howned : MarkersOwned s)
    (hs : HasUserRow c m content fileIds s) : HasUserRow c m content fileIds t := by
  rcases hs with ⟨row, hrow, hsender, hcontent, hfiles⟩
  rcases call_row hmints h hrow with ⟨row', hrow', hchange⟩
  cases hchange with
  | same => exact ⟨row, hrow', hsender, hcontent, hfiles⟩
  | deleted => exact ⟨_, hrow', hsender, hcontent, hfiles⟩
  | replied _ hanswers _ _ =>
      have hassistant := hanswers.writable row hrow
      rw [hsender] at hassistant
      cases hassistant
  | timedOut _ _ hmarker _ =>
      rcases Store.markers_of_liveMarker hmarker with ⟨mk, hmk, rfl⟩
      rcases howned m mk hmk with ⟨owner, howner, hassistant⟩
      rw [hrow] at howner
      cases howner
      rw [hsender] at hassistant
      cases hassistant

theorem hasUserRow_runs {s t : Store} {c m : UUID} {content : Text}
    {fileIds : List UUID} (hrun : Runs d mayFail (MintsUnused d) s t)
    (howned : MarkersOwned s) (hs : HasUserRow c m content fileIds s) :
    HasUserRow c m content fileIds t := by
  have hboth : MarkersOwned t ∧ HasUserRow c m content fileIds t := by
    apply runs_invariant (I := fun u => MarkersOwned u ∧
      HasUserRow c m content fileIds u) _ _ hrun ⟨howned, hs⟩
    · intro call u v r hmints hu hfin
      have heffect := callEffect hmints hfin
      exact ⟨markersOwned_call hmints heffect hu.left,
        hasUserRow_call hmints heffect hu.left hu.right⟩
    · intro u v helapsed hu
      refine ⟨markersOwned_elapsed helapsed hu.left, ?_⟩
      unfold HasUserRow
      rw [helapsed.row]
      exact hu.right
  exact hboth.right

theorem hasUserRow_send {reads : Readings} {args : SendArgs} {s t : Store}
    (hmints : MintsUnused d s (.send reads args)) (huser : args.sender = .user)
    (h : CallEffect d mayFail (.send reads args) s t)
    (hstored : t.row args.conversationId args.messageId ≠ none) :
    HasUserRow args.conversationId args.messageId args.content
      (args.fileIds.getD []) t := by
  have hnone : s.row args.conversationId args.messageId = none :=
    hmints.unused args.messageId (Or.inl rfl) args.conversationId
  cases h with
  | untouched hcore =>
      rw [hcore.row, hnone] at hstored
      exact absurd rfl hstored
  | sent hresponse hopened hother =>
      rcases hother with hsame | hstaged
      · rw [hsame, hnone] at hstored
        exact absurd rfl hstored
      · refine ⟨_, hstaged, ?_, rfl, rfl⟩
        exact congrArg some huser
  | noted hresponse hcore =>
      unfold MessageService.responseIdFor at hresponse
      rw [huser] at hresponse
      cases hresponse

/--
A row that `send` stored for a user keeps its sender, content and files in every
later state, whatever events arrive, whatever the worker does and whichever
operations raise.
-/
theorem userRow_kept {initial s s' t : Store} {reads : Readings} {args : SendArgs}
    {result : Except PyExc Unit} (hinitial : Initial initial)
    (hreach : Runs d mayFail (MintsUnused d) initial s)
    (hmints : MintsUnused d s (.send reads args)) (huser : args.sender = .user)
    (hsend : Prog.Finishes storageMachine mayFail
      (Call.program d (.send reads args)) s result s')
    (hstored : s'.row args.conversationId args.messageId ≠ none)
    (hrun : Runs d mayFail (MintsUnused d) s' t) :
    exists row, t.row args.conversationId args.messageId = some row ∧
      row.sender = some .user ∧ row.content = some args.content ∧
      row.fileIds = args.fileIds.getD [] := by
  have howned : MarkersOwned s :=
    markersOwned_runs (fun _ _ h => h) hreach (markersOwned_initial hinitial)
  have heffect := callEffect hmints hsend
  exact hasUserRow_runs hrun (markersOwned_call hmints heffect howned)
    (hasUserRow_send hmints huser heffect hstored)

def firstMessage : SendArgs :=
  .plain (.ofInt 1) (uuidv7 (.at 1000)) (text "hello")

/-- A reply that claims the id of that message for itself. -/
def forgedReply : Event :=
  [ (text "response_message_id", .str firstMessage.messageId.toText),
    (text "conversation_id", .str firstMessage.conversationId.toText),
    (text "full_content", .str (text "overwritten")) ]

theorem userRow_kept_forged :
    exists row,
      (Call.after .single (.generated ⟨0, true⟩ forgedReply)
        (Call.after .single (.send (.at 1001) firstMessage) .blank)).row
          firstMessage.conversationId firstMessage.messageId = some row ∧
      row.sender = some .user ∧ row.content = some firstMessage.content ∧
      row.fileIds = firstMessage.fileIds.getD [] := by
  have hmints : MintsUnused .single Store.blank (.send (.at 1001) firstMessage) :=
    mintsUnused_blank (by decide)
  rcases after_finishes .single (.send (.at 1001) firstMessage) .blank with
    ⟨sent, hsent⟩
  rcases after_finishes .single (.generated ⟨0, true⟩ forgedReply)
    (Call.after .single (.send (.at 1001) firstMessage) .blank) with ⟨forged, hforged⟩
  have hstored : (Call.after .single (.send (.at 1001) firstMessage) .blank).row
      firstMessage.conversationId firstMessage.messageId ≠ none := by
    have hsome : ((Call.after .single (.send (.at 1001) firstMessage) .blank).row
        firstMessage.conversationId firstMessage.messageId).isSome = true := by
      decide
    intro h
    rw [h] at hsome
    cases hsome
  have hrun : Runs .single noFault (MintsUnused .single)
      (Call.after .single (.send (.at 1001) firstMessage) .blank)
      (Call.after .single (.generated ⟨0, true⟩ forgedReply)
        (Call.after .single (.send (.at 1001) firstMessage) .blank)) :=
    Relation.ReflTransGen.single
      (.call _ forged (mintsUnused_generated _ _ _ _) hforged)
  exact userRow_kept initial_blank Relation.ReflTransGen.refl hmints rfl hsent hstored
    hrun

end ConversationService
