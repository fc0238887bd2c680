import ConversationService.Library.FittingPrefixes
import ConversationService.Model.EventHistory

/-!
# The history of a request event

The loop of `_format_history` goes through the eligible messages, newest first, and takes
them for as long as the bounds on their number and on their characters hold. So it takes
the longest beginning of them within the bounds.
-/

namespace ConversationService
namespace EventHistory

open Python FittingPrefixes MessageService

/-!
# Eligible messages
-/

/-- A finished message of the user or the assistant that is not blank. -/
def IsEligible (m : StoredTurn) : Prop :=
  (m.sender = some (text "user") ∨ m.sender = some (text "assistant")) ∧
    m.status = text "sent" ∧ strippedContent m ≠ []

instance : DecidablePred IsEligible := fun m =>
  inferInstanceAs (Decidable ((m.sender = some (text "user") ∨
    m.sender = some (text "assistant")) ∧ m.status = text "sent" ∧ strippedContent m ≠ []))

def cutText (m : StoredTurn) : Text :=
  (strippedContent m).take historyEventMaxMessageChars

def turn (m : StoredTurn) : HistoryTurn :=
  ⟨m.sender, cutText m, m.messageId.toText⟩

def totalChars (messages : List StoredTurn) : Nat :=
  (messages.map (fun m => (cutText m).length)).sum

/-- At most ten messages with at most 8000 characters. -/
def Fits (messages : List StoredTurn) : Prop :=
  messages.length ≤ historyEventMaxMessages ∧
    (totalChars messages : Int) ≤ historyEventMaxChars

instance : DecidablePred Fits := fun messages =>
  inferInstanceAs (Decidable (messages.length ≤ historyEventMaxMessages ∧
    (totalChars messages : Int) ≤ historyEventMaxChars))

@[simp] theorem totalChars_concat (messages : List StoredTurn) (m : StoredTurn) :
    totalChars (messages ++ [m]) = totalChars messages + (cutText m).length := by
  simp [totalChars]

theorem length_cutText_le (m : StoredTurn) : (cutText m).length ≤ 2000 :=
  List.length_take_le _ _

theorem fits_nil : Fits [] := by
  decide

theorem isClosed_fits : IsClosed Fits := by
  intro messages m h
  rcases h with ⟨hlength, hchars⟩
  rw [List.length_append, List.length_singleton] at hlength
  rw [totalChars_concat] at hchars
  exact ⟨by omega, by omega⟩

theorem fits_singleton (m : StoredTurn) : Fits [m] := by
  have hcut := length_cutText_le m
  constructor
  · show 1 ≤ 10
    decide
  · show ((totalChars [m] : Nat) : Int) ≤ 8000
    simp only [totalChars, List.map_cons, List.map_nil, List.sum_cons, List.sum_nil]
    omega

/-!
# The loop
-/

theorem formatFrom_skip {m : StoredTurn} (h : ¬IsEligible m) (picked : List HistoryTurn)
    (budget : Int) (rest : List StoredTurn) :
    formatFrom picked budget (m :: rest) = formatFrom picked budget rest := by
  rw [formatFrom]
  by_cases hsender : m.sender = some (text "user") ∨ m.sender = some (text "assistant")
  · rw [if_neg (not_not.mpr hsender), if_pos]
    by_contra hkept
    rw [not_or, not_not] at hkept
    exact h ⟨hsender, hkept⟩
  · rw [if_pos hsender]

theorem formatFrom_take {m : StoredTurn} (h : IsEligible m) (picked : List HistoryTurn)
    (budget : Int) (rest : List StoredTurn) :
    formatFrom picked budget (m :: rest) =
      if budget - (cutText m).length < 0 ∧ picked ≠ [] then picked
      else if historyEventMaxMessages ≤ (picked ++ [turn m]).length then picked ++ [turn m]
      else formatFrom (picked ++ [turn m]) (budget - (cutText m).length) rest := by
  rcases h with ⟨hsender, hsent, htext⟩
  rw [formatFrom, if_neg (not_not.mpr hsender), if_neg]
  · rfl
  · rintro (hstatus | hblank)
    · exact hstatus hsent
    · exact htext hblank

theorem growFrom_full {taken : List StoredTurn}
    (hfull : historyEventMaxMessages ≤ taken.length) (rest : List StoredTurn) :
    growFrom Fits taken rest = taken := by
  rcases @growFrom_cases _ Fits _ taken rest with ⟨m, _, hfits, _⟩ | ⟨_, hend⟩
  · have hlength := hfits.left
    rw [List.length_append, List.length_singleton] at hlength
    omega
  · exact hend

theorem formatFrom_eq (messages taken : List StoredTurn) (hfits : Fits taken)
    (hroom : taken.length < historyEventMaxMessages) :
    formatFrom (taken.map turn) (historyEventMaxChars - totalChars taken) messages =
      (growFrom Fits taken (messages.filter IsEligible)).map turn := by
  induction messages generalizing taken with
  | nil => rfl
  | cons m rest ih =>
      by_cases heligible : IsEligible m
      · rw [formatFrom_take heligible, List.filter_cons_of_pos (by simpa using heligible),
          growFrom]
        have hbudget : historyEventMaxChars - totalChars taken - (cutText m).length =
            historyEventMaxChars - totalChars (taken ++ [m]) := by
          rw [totalChars_concat]
          omega
        have hmap : taken.map turn ++ [turn m] = (taken ++ [m]).map turn := by simp
        rw [hbudget, hmap]
        by_cases hmore : Fits (taken ++ [m])
        · rw [if_pos hmore, if_neg]
          · by_cases hfull : historyEventMaxMessages ≤ (taken ++ [m]).length
            · rw [if_pos (by simpa using hfull), growFrom_full hfull]
            · rw [if_neg (by simpa using hfull)]
              exact ih (taken ++ [m]) hmore (by omega)
          · rintro ⟨hover, _⟩
            have hchars := hmore.right
            omega
        · rw [if_neg hmore, if_pos]
          constructor
          · -- there is room for one more, so it is the characters that do not fit
            by_contra hchars
            apply hmore
            refine ⟨?_, by omega⟩
            rw [List.length_append, List.length_singleton]
            exact hroom
          · intro hnil
            rw [List.map_eq_nil_iff] at hnil
            rw [hnil] at hmore
            exact hmore (fits_singleton m)
      · rw [formatFrom_skip heligible, List.filter_cons_of_neg (by simpa using heligible)]
        exact ih taken hfits hroom

theorem formatHistory_eq (messages : List StoredTurn) :
    formatHistory messages =
      ((longest Fits (messages.filter IsEligible)).map turn).reverse :=
  congrArg List.reverse (formatFrom_eq messages [] fits_nil (by decide))

/-!
# Messages of the services
-/

theorem senderText_user_iff (sender : Option Sender) :
    sender.map senderText = some (text "user") <-> sender = some .user := by
  rcases sender with _ | _ | _ | _ <;> decide

theorem senderText_assistant_iff (sender : Option Sender) :
    sender.map senderText = some (text "assistant") <-> sender = some .assistant := by
  rcases sender with _ | _ | _ | _ <;> decide

theorem statusText_sent_iff (status : MessageStatus) :
    statusText status = text "sent" <-> status = .sent := by
  cases status <;> decide

theorem not_isEligible_turnOf {m : Message}
    (h : ¬(m.sender = some .user ∨ m.sender = some .assistant) ∨ m.status ≠ .sent ∨
      strip (m.content.getD []) = []) : ¬IsEligible (turnOf m) := by
  rintro ⟨hsender, hsent, htext⟩
  rcases h with h | h | h
  · exact h (hsender.imp (senderText_user_iff _).mp (senderText_assistant_iff _).mp)
  · exact h ((statusText_sent_iff _).mp hsent)
  · exact htext h

/-- The loop of the message service is the one over the texts of the columns. -/
theorem formatHistoryFrom_turns (messages : List Message) (picked : List HistoryEntry)
    (budget : Int) :
    (formatHistoryFrom picked budget messages).map entryTurn =
      formatFrom (picked.map entryTurn) budget (messages.map turnOf) := by
  induction messages generalizing picked budget with
  | nil => rfl
  | cons m rest ih =>
      rw [formatHistoryFrom, List.map_cons]
      split
      · rename_i hsender
        rw [formatFrom_skip (not_isEligible_turnOf (Or.inl hsender))]
        exact ih picked budget
      · rename_i hsender
        split
        · rename_i hskip
          rw [formatFrom_skip (not_isEligible_turnOf (Or.inr hskip))]
          exact ih picked budget
        · rename_i hkept
          rw [not_or, not_not] at hkept
          have heligible : IsEligible (turnOf m) :=
            ⟨(not_not.mp hsender).imp (senderText_user_iff _).mpr
              (senderText_assistant_iff _).mpr, (statusText_sent_iff _).mpr hkept.left,
              hkept.right⟩
          have hpicked : picked.map entryTurn ++ [turn (turnOf m)] =
              (picked ++ [HistoryEntry.own m.sender (cutText (turnOf m)) m.messageId]).map
                entryTurn := by
            rw [List.map_append]
            rfl
          have hnil : picked.map entryTurn ≠ [] <-> picked ≠ [] := by simp
          rw [formatFrom_take heligible, hpicked, List.length_map]
          simp only [hnil]
          change List.map entryTurn (if budget - (cutText (turnOf m)).length < 0 ∧ picked ≠ []
            then picked else if historyEventMaxMessages ≤
              (picked ++ [HistoryEntry.own m.sender (cutText (turnOf m)) m.messageId]).length
            then _ else _) = _
          by_cases hover : budget - (cutText (turnOf m)).length < 0 ∧ picked ≠ []
          · rw [if_pos hover, if_pos hover]
          · rw [if_neg hover, if_neg hover, apply_ite (List.map entryTurn), ← ih]
            rfl

theorem formatHistory_turns (messages : List Message) :
    (MessageService.formatHistory messages).map entryTurn =
      formatHistory (messages.map turnOf) := by
  unfold MessageService.formatHistory formatHistory
  rw [List.map_reverse, formatHistoryFrom_turns]
  rfl

/--
The history of an event is, oldest first, the longest beginning of the eligible messages,
newest first, with at most ten messages and at most 8000 characters. It has the newest
eligible message whenever there is one.
-/
theorem event_history_longest :
    (forall messages : List StoredTurn, exists taken : List StoredTurn,
      formatHistory messages = (taken.map turn).reverse ∧
        IsLongest Fits taken (messages.filter IsEligible) ∧
        (forall newest, (messages.filter IsEligible).head? = some newest ->
          taken.head? = some newest)) ∧
    forall messages : List Message,
      (MessageService.formatHistory messages).map entryTurn =
        formatHistory (messages.map turnOf) := by
  refine ⟨?_, formatHistory_turns⟩
  intro messages
  have hlongest := isLongest_longest isClosed_fits fits_nil (messages.filter IsEligible)
  refine ⟨_, formatHistory_eq messages, hlongest, ?_⟩
  intro newest hnewest
  rcases List.head?_eq_some_iff.mp hnewest with ⟨rest, hrest⟩
  have hfirst := hlongest.maximal [newest] (hrest ▸ ⟨rest, rfl⟩) (fits_singleton newest)
  rw [List.length_singleton] at hfirst
  rcases hlongest.isPrefix with ⟨others, hothers⟩
  cases htaken : longest Fits (messages.filter IsEligible) with
  | nil =>
      rw [htaken] at hfirst
      cases hfirst
  | cons first more =>
      rw [htaken, hrest] at hothers
      rw [(List.cons.inj hothers).left]
      rfl

end EventHistory
end ConversationService
