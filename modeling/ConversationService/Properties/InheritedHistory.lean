import ConversationService.Effects.BranchScope
import ConversationService.Library.FittingPrefixes

/-!
# The inherited history

From each ancestor, the nearest first, the newest thirty-two stored rows within the boundary
are read, and only then are the unusable ones left out. What is returned is the newest part
of the transcript that fits exactly if the rows that were read do not depart from the
transcript before the budget is spent.
-/

namespace ConversationService

open Python Programs FittingPrefixes

/-!
# The transcript
-/

/-- The usable messages among stored rows. -/
def usableRows (c : UUID) (rows : List (UUID × Row)) : List Message :=
  (rows.filterMap (MessageRepository.liveMessage c)).filter BranchContextService.usable

/-- The stored rows of an ancestor within its recorded boundary, newest first. -/
def rowsUpto (s : Store) (seg : Segment) : List (UUID × Row) :=
  match seg.uptoMessageId with
  | some upto =>
      (s.messages seg.conversationId).rows.filter (fun (r : UUID × Row) => r.1 ≤ upto)
  | none => []

/-- All that the branch may see, oldest first. -/
def transcript (s : Store) (l : Lineage) : List Message :=
  l.segments.flatMap (fun seg => (usableRows seg.conversationId (rowsUpto s seg)).reverse)

/-- The messages with an id that is not among `seen` and not that of an earlier one. -/
def onceFrom : List UUID -> List Message -> List Message
  | _, [] => []
  | seen, m :: rest =>
      if m.messageId ∈ seen then onceFrom seen rest
      else m :: onceFrom (m.messageId :: seen) rest

/-- What is read of an ancestor. -/
def scannedRows (s : Store) (seg : Segment) : List (UUID × Row) :=
  (rowsUpto s seg).take (inheritedMaxMessages * 2)

/-- The usable messages among all that is read, newest first, each id once. -/
def scannedMessages (s : Store) (l : Lineage) : List Message :=
  onceFrom [] (l.segments.reverse.flatMap (fun seg =>
    usableRows seg.conversationId (scannedRows s seg)))

/-- At most 16 messages, with at most 12000 characters. -/
structure FitsBudget (messages : List Message) : Prop where
  length : messages.length ≤ inheritedMaxMessages
  chars : ((messages.map (fun m => (BranchContextService.inheritedText m).length)).sum : Int) ≤
    inheritedMaxChars

theorem fitsBudget_iff (messages : List Message) : FitsBudget messages <->
    messages.length ≤ inheritedMaxMessages ∧
      ((messages.map (fun m => (BranchContextService.inheritedText m).length)).sum : Int) ≤
        inheritedMaxChars :=
  ⟨fun h => ⟨h.length, h.chars⟩, fun h => ⟨h.left, h.right⟩⟩

instance : DecidablePred FitsBudget :=
  fun messages => decidable_of_iff _ (fitsBudget_iff messages).symm

/-- The longest end of the transcript that fits. -/
structure IsNewest (suffix messages : List Message) : Prop where
  isSuffix : suffix <:+ messages
  fits : FitsBudget suffix
  maximal : forall other, other <:+ messages -> FitsBudget other ->
    other.length ≤ suffix.length

/--
Where the messages that are read depart from the transcript, both newest first, neither the
next one that is read nor the next one of the transcript fits any more.
-/
def ReadsTranscript (s : Store) (l : Lineage) : Prop :=
  forall common others older, scannedMessages s l = common ++ others ->
    (transcript s l).reverse = common ++ older -> others.head? ≠ older.head? ->
    FitsBudget common ->
    (forall m, others.head? = some m -> ¬FitsBudget (common ++ [m])) ∧
      (forall m, older.head? = some m -> ¬FitsBudget (common ++ [m]))

/-!
# The budget
-/

theorem fitsBudget_nil : FitsBudget [] :=
  ⟨by decide, by decide⟩

theorem closed_fitsBudget : IsClosed FitsBudget := by
  intro messages m h
  have hlength := h.length
  have hchars := h.chars
  rw [List.length_append, List.length_singleton] at hlength
  rw [List.map_append, List.sum_append] at hchars
  constructor
  · omega
  · omega

theorem fitsBudget_reverse {messages : List Message} :
    FitsBudget messages.reverse <-> FitsBudget messages := by
  rw [fitsBudget_iff, fitsBudget_iff, List.length_reverse, List.map_reverse, List.sum_reverse]

theorem isNewest_iff {suffix messages : List Message} :
    IsNewest suffix messages <-> suffix.reverse = longest FitsBudget messages.reverse := by
  rw [← isLongest_iff closed_fitsBudget fitsBudget_nil]
  constructor
  · intro h
    refine ⟨List.reverse_prefix.mpr h.isSuffix, fitsBudget_reverse.mpr h.fits, ?_⟩
    intro other hprefix hfits
    have hsuffix : other.reverse <:+ messages := by
      rw [← List.reverse_reverse messages]
      exact List.reverse_suffix.mpr hprefix
    have hlength := h.maximal other.reverse hsuffix (fitsBudget_reverse.mpr hfits)
    rwa [List.length_reverse] at hlength ⊢
  · intro h
    refine ⟨List.reverse_prefix.mp h.isPrefix, fitsBudget_reverse.mp h.fits, ?_⟩
    intro other hsuffix hfits
    have hlength := h.maximal other.reverse (List.reverse_prefix.mpr hsuffix)
      (fitsBudget_reverse.mpr hfits)
    rwa [List.length_reverse, List.length_reverse] at hlength

theorem length_inheritedText (m : Message) :
    (BranchContextService.inheritedText m).length ≤ inheritedMaxMessageChars := by
  unfold BranchContextService.inheritedText
  rw [List.length_take]
  exact Nat.min_le_left _ _

/-!
# Picking
-/

/-- The state of the loop after some messages were picked. -/
def pickingOf (picked : List Message) : BranchContextService.Picking :=
  { picked := picked
    seen := (picked.map Message.messageId).reverse
    chars := inheritedMaxChars -
      (picked.map (fun m => (BranchContextService.inheritedText m).length)).sum
    full := false }

theorem stops_iff {picked : List Message} (h : FitsBudget picked) (m : Message) :
    (inheritedMaxMessages ≤ picked.length ∨
      (picked ≠ [] ∧ (pickingOf picked).chars -
        ((BranchContextService.inheritedText m).length : Int) < 0)) <->
      ¬FitsBudget (picked ++ [m]) := by
  have hlength := h.length
  have hchars := h.chars
  have hcut := length_inheritedText m
  have hone : inheritedMaxMessageChars ≤ inheritedMaxChars := by decide
  rw [fitsBudget_iff, List.length_append, List.length_singleton, List.map_append,
    List.sum_append, List.map_singleton, List.sum_singleton]
  unfold pickingOf
  dsimp only
  push_cast
  constructor
  · rintro (hfull | ⟨_, hless⟩) ⟨hcount, hsum⟩
    · omega
    · omega
  · intro hnot
    by_cases hcount : inheritedMaxMessages ≤ picked.length
    · exact Or.inl hcount
    · right
      constructor
      · rintro rfl
        apply hnot
        constructor
        · decide
        · simp only [List.map_nil, List.sum_nil]
          omega
      · by_contra hless
        apply hnot
        constructor
        · omega
        · omega

theorem picked_pickMessages {picked : List Message} (h : FitsBudget picked)
    (messages : List Message) :
    (BranchContextService.pickMessages (pickingOf picked) messages).picked =
      growFrom FitsBudget picked
        (onceFrom (picked.map Message.messageId).reverse messages) := by
  induction messages generalizing picked with
  | nil => rfl
  | cons m rest ih =>
      unfold BranchContextService.pickMessages onceFrom
      have hseen : (pickingOf picked).seen = (picked.map Message.messageId).reverse := rfl
      rw [hseen]
      by_cases hmem : m.messageId ∈ (picked.map Message.messageId).reverse
      · rw [if_pos hmem, if_pos hmem]
        exact ih h
      · rw [if_neg hmem, if_neg hmem]
        dsimp only
        have hpicked : (pickingOf picked).picked = picked := rfl
        rw [hpicked, growFrom]
        by_cases hfits : FitsBudget (picked ++ [m])
        · rw [if_neg (fun hstop => (stops_iff h m).mp hstop hfits), if_pos hfits]
          have hnext : ({ pickingOf picked with
              picked := picked ++ [m]
              seen := m.messageId :: (picked.map Message.messageId).reverse
              chars := (pickingOf picked).chars -
                ((BranchContextService.inheritedText m).length : Int) } :
                BranchContextService.Picking) = pickingOf (picked ++ [m]) := by
            unfold pickingOf
            simp only [List.map_append, List.map_singleton, List.reverse_append,
              List.reverse_singleton, List.singleton_append, List.sum_append,
              List.sum_singleton, Nat.cast_add, BranchContextService.Picking.mk.injEq,
              and_true, true_and]
            omega
          rw [hnext, ih hfits]
          rw [List.map_append, List.map_singleton, List.reverse_append,
            List.reverse_singleton, List.singleton_append]
        · rw [if_pos ((stops_iff h m).mpr hfits), if_neg hfits]

theorem pickMessages_append (p : BranchContextService.Picking) (hp : p.full = false)
    (xs ys : List Message) :
    BranchContextService.pickMessages p (xs ++ ys) =
      if (BranchContextService.pickMessages p xs).full then
        BranchContextService.pickMessages p xs
      else
        BranchContextService.pickMessages (BranchContextService.pickMessages p xs) ys := by
  induction xs generalizing p with
  | nil =>
      rw [List.nil_append, BranchContextService.pickMessages, hp]
      rfl
  | cons m rest ih =>
      rw [List.cons_append, BranchContextService.pickMessages, BranchContextService.pickMessages]
      by_cases hmem : m.messageId ∈ p.seen
      · rw [if_pos hmem, if_pos hmem]
        exact ih p hp
      · rw [if_neg hmem, if_neg hmem]
        dsimp only
        split
        · rw [if_pos rfl]
        · exact ih _ hp

theorem pickOf_eq {s : Store} {p : BranchContextService.Picking} (hp : p.full = false)
    {segments : List Segment}
    (hrecorded : forall seg, seg ∈ segments -> seg.uptoMessageId.isSome = true) :
    pickOf s p segments = some (BranchContextService.pickMessages p
      (segments.flatMap (fun seg => usableRows seg.conversationId (scannedRows s seg)))) := by
  induction segments generalizing p with
  | nil => rfl
  | cons seg rest ih =>
      rcases Option.isSome_iff_exists.mp (hrecorded seg (by simp)) with ⟨upto, hupto⟩
      have hscope : (scopeOf s seg (inheritedMaxMessages * 2)).map
          (fun rows => rows.filter BranchContextService.usable) =
            some (usableRows seg.conversationId (scannedRows s seg)) := by
        unfold scopeOf usableRows scannedRows rowsUpto
        rw [hupto]
        rfl
      rcases Option.map_eq_some_iff.mp hscope with ⟨rows, hrows, husable⟩
      unfold pickOf
      rw [hrows, Option.bind_some, husable, List.flatMap_cons, pickMessages_append p hp]
      dsimp only
      split
      · rfl
      · rename_i hfull
        exact ih (by simpa using hfull)
          (fun seg hseg => hrecorded seg (List.mem_cons_of_mem _ hseg))

theorem inheritedOf_eq {s : Store} {l : Lineage}
    (hrecorded : forall seg, seg ∈ l.segments -> seg.uptoMessageId.isSome = true) :
    inheritedOf s l = (longest FitsBudget (scannedMessages s l)).reverse.map
      BranchContextService.inheritedMessage := by
  unfold inheritedOf
  have hstart : BranchContextService.Picking.start = pickingOf [] := rfl
  rw [pickOf_eq rfl (fun seg hseg => hrecorded seg (List.mem_reverse.mp hseg)), hstart]
  dsimp only
  rw [picked_pickMessages fitsBudget_nil]
  rfl

/-!
# The result and the transcript
-/

def IsStoredMessage (s : Store) (m : Message) : Prop :=
  exists row shown, s.row m.conversationId m.messageId = some row ∧
    row.status.message? = some shown ∧
    m = MessageRepository.rowMessage m.conversationId m.messageId shown row

theorem stored_usableRows {s : Store} {c : UUID} {rows : List (UUID × Row)}
    (hrows : forall entry, entry ∈ rows -> entry ∈ (s.messages c).rows) {m : Message}
    (hm : m ∈ usableRows c rows) : IsStoredMessage s m := by
  rcases List.mem_filterMap.mp (List.mem_of_mem_filter hm) with ⟨entry, hentry, hlive⟩
  unfold MessageRepository.liveMessage at hlive
  rcases Option.map_eq_some_iff.mp hlive with ⟨shown, hshown, rfl⟩
  exact ⟨entry.2, shown, row_of_mem_rows (hrows entry hentry), hshown, rfl⟩

theorem mem_rowsUpto {s : Store} {seg : Segment} {entry : UUID × Row}
    (h : entry ∈ rowsUpto s seg) : entry ∈ (s.messages seg.conversationId).rows := by
  unfold rowsUpto at h
  split at h
  · exact List.mem_of_mem_filter h
  · cases h

theorem mem_onceFrom {m : Message} {seen : List UUID} {messages : List Message}
    (h : m ∈ onceFrom seen messages) : m ∈ messages := by
  induction messages generalizing seen with
  | nil => cases h
  | cons head rest ih =>
      unfold onceFrom at h
      split at h
      · exact List.mem_cons_of_mem _ (ih h)
      · rcases List.mem_cons.mp h with rfl | hrest
        · simp
        · exact List.mem_cons_of_mem _ (ih hrest)

theorem stored_scannedMessages {s : Store} {l : Lineage} {m : Message}
    (hm : m ∈ scannedMessages s l) : IsStoredMessage s m := by
  rcases List.mem_flatMap.mp (mem_onceFrom hm) with ⟨seg, _, hseg⟩
  exact stored_usableRows (fun entry h => mem_rowsUpto (List.mem_of_mem_take h)) hseg

theorem stored_transcript {s : Store} {l : Lineage} {m : Message}
    (hm : m ∈ transcript s l) : IsStoredMessage s m := by
  rcases List.mem_flatMap.mp hm with ⟨seg, _, hseg⟩
  exact stored_usableRows (fun entry h => mem_rowsUpto h) (List.mem_reverse.mp hseg)

theorem inheritedMessage_injective {s : Store} {m m' : Message} (hm : IsStoredMessage s m)
    (hm' : IsStoredMessage s m')
    (h : BranchContextService.inheritedMessage m = BranchContextService.inheritedMessage m') :
    m = m' := by
  rcases hm with ⟨row, shown, hrow, hshown, heq⟩
  rcases hm' with ⟨row', shown', hrow', hshown', heq'⟩
  have hconversation : m.conversationId = m'.conversationId :=
    congrArg InheritedMessage.conversationId h
  have hid : m.messageId = m'.messageId := congrArg InheritedMessage.messageId h
  rw [hconversation, hid, hrow'] at hrow
  cases hrow
  rw [hshown'] at hshown
  cases hshown
  rw [heq, heq', hconversation, hid]

theorem map_inheritedMessage_inj {s : Store} {xs ys : List Message}
    (hxs : forall m, m ∈ xs -> IsStoredMessage s m)
    (hys : forall m, m ∈ ys -> IsStoredMessage s m)
    (h : xs.map BranchContextService.inheritedMessage =
      ys.map BranchContextService.inheritedMessage) : xs = ys := by
  induction xs generalizing ys with
  | nil =>
      cases ys with
      | nil => rfl
      | cons m rest => cases h
  | cons m rest ih =>
      cases ys with
      | nil => cases h
      | cons m' rest' =>
          rw [List.map_cons, List.map_cons, List.cons.injEq] at h
          rw [inheritedMessage_injective (hxs m (by simp)) (hys m' (by simp)) h.left,
            ih (fun x hx => hxs x (List.mem_cons_of_mem _ hx))
              (fun x hx => hys x (List.mem_cons_of_mem _ hx)) h.right]

theorem readsTranscript_iff (s : Store) (l : Lineage) : ReadsTranscript s l <->
    longest FitsBudget (scannedMessages s l) = longest FitsBudget (transcript s l).reverse :=
  (longest_eq_iff closed_fitsBudget fitsBudget_nil _ _).symm

/-- What `inherited_history` returns is the longest end of the transcript that fits. -/
def InheritsNewest (s : Store) (l : Lineage) : Prop :=
  exists suffix, IsNewest suffix (transcript s l) ∧
    (transcript s l ≠ [] -> suffix ≠ []) ∧
    answerOf (BranchContextService.inheritedHistory l) s =
      .ok (suffix.map BranchContextService.inheritedMessage)

theorem answerOf_inheritedHistory (s : Store) (l : Lineage) :
    answerOf (BranchContextService.inheritedHistory l) s = .ok (inheritedOf s l) := by
  apply answerOf_eq_of_wp
  exact wp_inheritedHistory l rfl

theorem fitsBudget_singleton (m : Message) : FitsBudget [m] := by
  have hcut := length_inheritedText m
  have hone : inheritedMaxMessageChars ≤ inheritedMaxChars := by decide
  constructor
  · have hlength : 1 ≤ inheritedMaxMessages := by decide
    exact hlength
  · simp only [List.map_singleton, List.sum_singleton]
    omega

/--
For a lineage with recorded boundaries, the inherited history is the newest part of the
transcript that fits exactly if the rows that are read do not depart from the transcript
before the budget is spent.
-/
theorem inheritsNewest_iff (s : Store) (l : Lineage)
    (hrecorded : forall seg, seg ∈ l.segments -> seg.uptoMessageId.isSome = true) :
    InheritsNewest s l <-> ReadsTranscript s l := by
  rw [readsTranscript_iff]
  constructor
  · rintro ⟨suffix, hnewest, _, hanswer⟩
    have hsuffix := isNewest_iff.mp hnewest
    rw [answerOf_inheritedHistory, inheritedOf_eq hrecorded] at hanswer
    rw [← hsuffix]
    have hlists := map_inheritedMessage_inj (s := s) ?_ ?_ (Except.ok.inj hanswer)
    · rw [← hlists, List.reverse_reverse]
    · intro m hm
      have hmem := (growFrom_within [] _).subset (List.mem_reverse.mp hm)
      exact stored_scannedMessages hmem
    · intro m hm
      exact stored_transcript (hnewest.isSuffix.subset hm)
  · intro heq
    have hnewest : IsNewest (longest FitsBudget (transcript s l).reverse).reverse
        (transcript s l) := by
      rw [isNewest_iff, List.reverse_reverse]
    refine ⟨_, hnewest, ?_, ?_⟩
    · intro hne hempty
      rcases List.eq_nil_or_concat (transcript s l) with hnil | ⟨older, m, hlast⟩
      · exact hne hnil
      · have hlength := hnewest.maximal [m] ⟨older, by rw [hlast]; simp⟩
          (fitsBudget_singleton m)
        rw [hempty] at hlength
        simp at hlength
    · rw [answerOf_inheritedHistory, inheritedOf_eq hrecorded, heq]

/-! A branch of a branch, whose parent has a reply that was replaced again and again. -/

def spokenRow (sender : Sender) (content : Text) : Option Row -> Row :=
  Row.inserted sender content ⟨0, true⟩ .sent none

/-- The grandparent has one message; the parent a question and its last reply. -/
def twoAncestors : Store :=
  ((Store.blank.upsertMessage (.ofInt 1) (.ofInt 1) (spokenRow .user (text "a"))).upsertMessage
    (.ofInt 2) (.ofInt 2) (spokenRow .user (text "b"))).upsertMessage
    (.ofInt 2) (.ofInt 35) (spokenRow .assistant (text "c"))

/-- The replies in between were regenerated, which deletes them. -/
def regeneratedAncestors : Store :=
  (List.range 32).foldl (fun s i =>
    (s.upsertMessage (.ofInt 2) (.ofInt (3 + i)) (spokenRow .assistant (text "x"))).upsertMessage
      (.ofInt 2) (.ofInt (3 + i)) Row.softDeleted) twoAncestors

def ancestorSegments : Lineage :=
  { segments :=
      [ { conversationId := .ofInt 1
          title := none
          uptoMessageId := some (.ofInt 1)
          uptoTime := none },
        { conversationId := .ofInt 2
          title := none
          uptoMessageId := some (.ofInt 35)
          uptoTime := none } ]
    truncated := none }

theorem inheritsNewest_iff_twoAncestors : InheritsNewest twoAncestors ancestorSegments := by
  apply (inheritsNewest_iff twoAncestors ancestorSegments (by decide)).mpr
  rw [readsTranscript_iff]
  decide

/-- The question of the last reply is left out, and the message before it is not. -/
theorem inherited_with_gap :
    (transcript regeneratedAncestors ancestorSegments).map Message.messageId =
        [.ofInt 1, .ofInt 2, .ofInt 35] ∧
      (answerOf (BranchContextService.inheritedHistory ancestorSegments)
        regeneratedAncestors).map (fun inherited => inherited.map InheritedMessage.messageId) =
          .ok [.ofInt 1, .ofInt 35] ∧
      ¬InheritsNewest regeneratedAncestors ancestorSegments := by
  have htranscript : (transcript regeneratedAncestors ancestorSegments).map Message.messageId =
      [.ofInt 1, .ofInt 2, .ofInt 35] := by
    decide
  have hanswer : (answerOf (BranchContextService.inheritedHistory ancestorSegments)
      regeneratedAncestors).map (fun inherited => inherited.map InheritedMessage.messageId) =
        .ok [.ofInt 1, .ofInt 35] := by
    decide
  refine ⟨htranscript, hanswer, ?_⟩
  rintro ⟨suffix, hnewest, _, hinherits⟩
  rw [hinherits] at hanswer
  have hids : suffix.map Message.messageId = [.ofInt 1, .ofInt 35] := by
    have hmap := Except.ok.inj hanswer
    dsimp only at hmap
    rw [List.map_map] at hmap
    exact hmap
  have hsuffix : suffix.map Message.messageId <:+ [.ofInt 1, .ofInt 2, .ofInt 35] := by
    rw [← htranscript]
    exact hnewest.isSuffix.map _
  rw [hids] at hsuffix
  revert hsuffix
  decide

end ConversationService
