import ConversationService.Model.ExportService
import ConversationService.Properties.MessagePages

/-!
# The messages of an export

The collector reads the history in pages of a hundred stored rows and stops at the first
page without messages. Deleted rows are taken out of a page only after it was read, so
that it does not come past a hundred deleted rows in a row. Otherwise it returns the
messages that are to be exported, each once and oldest first.
-/

namespace ConversationService

open Python Programs KeysetScan

/-- Sent, and not blank. -/
def Message.isExported (m : Message) : Bool :=
  m.status = .sent && !(strip (m.content.getD [])).isEmpty

def liveHistory (s : Store) (c : UUID) : List Message :=
  (s.messages c).rows.filterMap (MessageRepository.liveMessage c)

/-- What an export of a conversation is to contain, oldest first. -/
def exportedMessages (s : Store) (c : UUID) : List Message :=
  (liveHistory s c).reverse.filter Message.isExported

/-- `"<message id>:<status>"` with the id of the newest live row and any status. -/
def NamesNewest (s : Store) (c : UUID) (marker : Text) : Prop :=
  exists newest status, (liveHistory s c).head? = some newest ∧
    marker = newest.messageId.toText ++ text ":" ++ status

/-- The stored row is one that an export is to contain. -/
def IsExportedRow (row : Row) : Prop :=
  row.status = .sent ∧ ¬(strip (row.content.getD [])).isEmpty

/-- A row to be exported is older than as many deleted rows in a row as a page reads. -/
def HiddenByDeletions (s : Store) (c : UUID) : Prop :=
  exists start,
    (forall i, i < ExportCollector.page -> exists entry,
      (s.messages c).rows[start + i]? = some entry ∧ entry.2.status = .deleted) ∧
    exists later entry, start + ExportCollector.page ≤ later ∧
      (s.messages c).rows[later]? = some entry ∧ IsExportedRow entry.2

/-!
# Pages
-/

def rowsFrom (s : Store) (c : UUID) (cursor : Option UUID) : List (UUID × Row) :=
  match cursor with
  | none => (s.messages c).rows
  | some k => (messageListing c).below k (s.messages c).rows

section Pages

variable {s : ExportStore} {c : UUID} {maxMessages : Nat}

theorem rowsFrom_sorted (s : Store) (c : UUID) (cursor : Option UUID) :
    (rowsFrom s c cursor).Pairwise (fun x y => y.1 < x.1) := by
  cases cursor with
  | none => exact (s.messages c).sorted
  | some k => exact (s.messages c).sorted.filter _

theorem below_rowsFrom {cursor : Option UUID} {last : Message}
    (hlast : ((messageListing c).page ExportCollector.page
      (rowsFrom s.sources c cursor)).getLast? = some last) :
    (messageListing c).below last.messageId (rowsFrom s.sources c cursor) =
      rowsFrom s.sources c (some last.messageId) := by
  cases cursor with
  | none => rfl
  | some k => exact Listing.below_below (le_of_lt (below_next hlast)) _

theorem wp_historyPage {cursor : Option UUID} {Q : List Message -> ExportStore -> Prop}
    {E : ExportExc -> ExportStore -> Prop}
    (hQ : Q ((messageListing c).page ExportCollector.page (rowsFrom s.sources c cursor)) s) :
    Prog.wp exportMachine (fun _ => False)
      (fromSources (MessageRepository.history c ExportCollector.page cursor)) Q E s := by
  refine ⟨?_, fun h => h.elim⟩
  cases cursor with
  | none => exact hQ
  | some k => exact hQ

theorem wp_pages {rounds : Nat} {collected : List Message} {cursor : Option UUID}
    {Q : List Message -> ExportStore -> Prop} {E : ExportExc -> ExportStore -> Prop}
    (hrounds : maxMessages ≤ rounds + collected.length)
    (hfew : collected.length + ((rowsFrom s.sources c cursor).filterMap
      (messageListing c).entry).length < maxMessages)
    (hQ : Q (collected ++ (messageListing c).upToGap ExportCollector.page 0
      (rowsFrom s.sources c cursor)) s) :
    Prog.wp exportMachine (fun _ => False)
      (ExportCollector.pages maxMessages c rounds collected cursor) Q E s := by
  induction rounds generalizing collected cursor with
  | zero => omega
  | succ rounds ih =>
      unfold ExportCollector.pages
      rw [if_pos (by omega), Prog.wp_bind]
      apply wp_historyPage
      generalize hpage : (messageListing c).page ExportCollector.page
        (rowsFrom s.sources c cursor) = page at *
      cases hlast : page.getLast? with
      | none =>
          rw [List.getLast?_eq_none_iff] at hlast
          rw [hlast] at hpage
          rw [Listing.upToGap_empty (by decide) hpage, List.append_nil] at hQ
          exact hQ
      | some last =>
          have hlast' := hpage ▸ hlast
          have hbelow := below_rowsFrom hlast'
          have hentries := Listing.entries_page (rowsFrom_sorted _ _ _) hlast'
          have hgap := Listing.upToGap_page (rowsFrom_sorted _ _ _) hlast'
          rw [show (messageListing c).entryKey last = last.messageId from rfl, hbelow,
            hpage] at hentries hgap
          have hsome : 0 < page.length := List.length_pos_of_mem (List.mem_of_getLast? hlast)
          apply ih
          · rw [List.length_append]
            omega
          · rw [hentries, List.length_append] at hfew
            rw [List.length_append]
            omega
          · rw [hgap] at hQ
            rw [List.append_assoc]
            exact hQ

end Pages

/-!
# The end of the list
-/

section Kept

variable {collected : List Message}

theorem limitId_marker (id : UUID) (status : Text) :
    ExportCollector.limitId (id.toText ++ text ":" ++ status) = id.toText := by
  unfold ExportCollector.limitId
  rw [List.append_assoc, List.takeWhile_append_of_pos]
  · show id.toText ++ (text ":" ++ status).takeWhile _ = id.toText
    have hcolon : (text ":" ++ status).takeWhile (fun c => decide (c ≠ 0x3A)) = [] := by
      rfl
    rw [hcolon, List.append_nil]
  · intro c hc
    rw [decide_eq_true_eq]
    intro heq
    exact UUID.not_mem_toText (by rw [heq]; rfl) (by rw [heq]; decide) hc

theorem cutAt_last {front : List Message} {last : Message}
    (hdistinct : (front ++ [last]).Pairwise (fun a b => a.messageId ≠ b.messageId)) :
    ExportCollector.cutAt last.messageId.toText (front ++ [last]) = front ++ [last] := by
  unfold ExportCollector.cutAt
  split
  · rfl
  · split
    · apply List.take_of_length_le
      have hfront : forall m, m ∈ front ->
          ¬decide (m.messageId.toText = last.messageId.toText) = true := by
        intro m hm h
        have hne := (List.pairwise_append.mp hdistinct).right.right m hm last (by simp)
        exact hne (UUID.toText_injective (of_decide_eq_true h))
      have hindex : (front ++ [last]).findIdx
          (fun m => m.messageId.toText = last.messageId.toText) = front.length := by
        rw [List.findIdx_append, List.findIdx_eq_length_of_false (by simpa using hfront)]
        simp
      rw [hindex]
      simp
    · rfl

theorem sentOnce_of_distinct {seen : List UUID}
    (hdistinct : collected.Pairwise (fun a b => a.messageId ≠ b.messageId))
    (hseen : forall m, m ∈ collected -> m.messageId ∉ seen) :
    ExportCollector.sentOnce seen collected = collected.filter Message.isExported := by
  induction collected generalizing seen with
  | nil => rfl
  | cons m rest ih =>
      rcases List.pairwise_cons.mp hdistinct with ⟨hm, hrest⟩
      have hnew : seen.contains m.messageId = false := by
        simpa using hseen m List.mem_cons_self
      have hlater : forall m', m' ∈ rest -> m'.messageId ∉ m.messageId :: seen := by
        intro m' hm' hmem
        rcases List.mem_cons.mp hmem with heq | hold
        · exact hm m' hm' heq.symm
        · exact hseen m' (List.mem_cons_of_mem _ hm') hold
      unfold ExportCollector.sentOnce
      rw [hnew, List.filter_cons]
      by_cases hkeep : m.isExported = true
      · have hkeep' : ¬(m.status ≠ .sent ∨ (strip (m.content.getD [])).isEmpty ∨
            (false = true)) := by
          simpa [Message.isExported] using hkeep
        rw [if_neg hkeep', if_pos hkeep, ih hrest hlater]
      · have hskip : m.status ≠ .sent ∨ (strip (m.content.getD [])).isEmpty ∨
            (false = true) := by
          unfold Message.isExported at hkeep
          by_contra hnot
          apply hkeep
          simpa using hnot
        rw [if_pos hskip, if_neg hkeep]
        exact ih hrest (fun m' hm' => hseen m' (List.mem_cons_of_mem _ hm'))

end Kept

/-!
# Completeness
-/

section Complete

variable {s : Store} {c : UUID}

theorem exportedRow_iff (entry : UUID × Row) :
    (exists m, (messageListing c).entry entry = some m ∧ m.isExported = true) <->
      IsExportedRow entry.2 := by
  have hentry : (messageListing c).entry entry = entry.2.status.message?.map (fun status =>
      MessageRepository.rowMessage c entry.1 status entry.2) := rfl
  rw [hentry]
  unfold IsExportedRow Message.isExported MessageRepository.rowMessage
  cases entry.2.status with
  | pending => simp [RowStatus.message?]
  | sent => simp [RowStatus.message?]
  | failed => simp [RowStatus.message?]
  | deleted => simp [RowStatus.message?]

theorem hiddenByDeletions_iff :
    HiddenByDeletions s c <->
      (messageListing c).HidesBehindGap ExportCollector.page Message.isExported
        (s.messages c).rows := by
  unfold HiddenByDeletions Listing.HidesBehindGap
  simp only [entry_eq_none_iff, ← exportedRow_iff (c := c)]
  apply exists_congr
  intro start
  apply and_congr_right
  intro _
  constructor
  · intro h
    rcases h with ⟨later, entry, hlater, hentry, m, hm, hexported⟩
    exact ⟨later, entry, m, hlater, hentry, hm, hexported⟩
  · intro h
    rcases h with ⟨later, entry, m, hlater, hentry, hm, hexported⟩
    exact ⟨later, entry, hlater, hentry, m, hm, hexported⟩

theorem liveHistory_sorted (s : Store) (c : UUID) :
    (liveHistory s c).Pairwise (fun a b => b.messageId < a.messageId) := by
  apply (s.messages c).sorted.filterMap
  intro a a' hlt b hb b' hb'
  have hkey : b.messageId = a.1 := (messageListing c).keeps a b hb
  have hkey' : b'.messageId = a'.1 := (messageListing c).keeps a' b' hb'
  rw [hkey, hkey']
  exact hlt

theorem kept_of_front {marker : Text} {collected : List Message}
    (hmarker : NamesNewest s c marker) (hfront : collected <+: liveHistory s c) :
    ExportCollector.sentOnce []
      (ExportCollector.cutAt (ExportCollector.limitId marker) collected.reverse) =
        (collected.filter Message.isExported).reverse := by
  rcases hmarker with ⟨newest, status, hnewest, rfl⟩
  have hdistinct : collected.reverse.Pairwise (fun a b => a.messageId ≠ b.messageId) := by
    rw [List.pairwise_reverse]
    exact ((liveHistory_sorted s c).sublist hfront.sublist).imp (fun h => ne_of_lt h)
  have hcut : ExportCollector.cutAt newest.messageId.toText collected.reverse =
      collected.reverse := by
    cases collected with
    | nil => unfold ExportCollector.cutAt; simp
    | cons m rest =>
        rcases hfront with ⟨others, hothers⟩
        rw [← hothers] at hnewest
        cases hnewest
        rw [List.reverse_cons] at hdistinct ⊢
        exact cutAt_last hdistinct
  rw [limitId_marker, hcut, sentOnce_of_distinct hdistinct (fun m _ h => by cases h),
    List.filter_reverse]

end Complete

/--
On a conversation with fewer live rows than the limit the collector ends, and it returns
what the export is to contain exactly if none of that is older than a hundred deleted rows
in a row.
-/
theorem export_messages_iff (s : ExportStore) (c : UUID) {maxMessages : Nat} {marker : Text}
    (hfew : (liveHistory s.sources c).length < maxMessages)
    (hmarker : NamesNewest s.sources c marker) :
    exists found,
      Prog.run exportMachine (fun _ => false)
        (ExportCollector.messages maxMessages c marker) s = (.ok found, s) ∧
      (found = exportedMessages s.sources c <-> ¬HiddenByDeletions s.sources c) := by
  have hwp : Prog.wp exportMachine (fun _ => False)
      (ExportCollector.messages maxMessages c marker)
      (fun found t => t = s ∧
        (found = exportedMessages s.sources c <-> ¬HiddenByDeletions s.sources c))
      (fun _ _ => False) s := by
    unfold ExportCollector.messages
    rw [Prog.wp_bind]
    apply wp_pages (Nat.le_add_right _ _)
    · rw [List.length_nil, Nat.zero_add]
      exact hfew
    · rw [List.nil_append]
      refine ⟨rfl, ?_⟩
      have hfront : (messageListing c).upToGap ExportCollector.page 0
          (rowsFrom s.sources c none) <+: liveHistory s.sources c :=
        Listing.upToGap_prefix 0 _
      rw [kept_of_front hmarker hfront, hiddenByDeletions_iff]
      unfold exportedMessages
      rw [List.filter_reverse, List.reverse_inj]
      exact Listing.upToGap_complete_iff Message.isExported _ (by decide)
  rw [Prog.wp_noFault_iff] at hwp
  generalize hrun : Prog.run exportMachine (fun _ => false)
    (ExportCollector.messages maxMessages c marker) s = result at hwp
  rcases result with ⟨outcome, t⟩
  cases outcome with
  | ok found =>
      dsimp only at hwp
      rw [hwp.left] at hrun
      exact ⟨found, by rw [hwp.left], hwp.right⟩
  | error e => exact hwp.elim

def deletedRows : List (UUID × Row) :=
  (List.range 100).reverse.map (fun n => (UUID.ofInt (n + 2), Row.softDeleted none)) ++
    [(UUID.ofInt 1, Row.inserted .assistant (text "a") ⟨0, true⟩ .sent none none)]

def manyDeleted : ExportStore :=
  { ExportStore.blank with
    sources :=
      { Store.blank with
        messages := fun _ => ⟨deletedRows, by decide⟩ } }

def manyDeletedMarker : Text := (UUID.ofInt 1).toText ++ text ":" ++ text "sent"

theorem manyDeleted_names :
    (liveHistory manyDeleted.sources (.ofInt 0)).length < 5000 ∧
      NamesNewest manyDeleted.sources (.ofInt 0) manyDeletedMarker := by
  have hlive : (liveHistory manyDeleted.sources (.ofInt 0)).map Message.messageId =
      [.ofInt 1] := by
    decide
  constructor
  · rw [← List.length_map (f := Message.messageId), hlive]
    decide
  · cases hcase : liveHistory manyDeleted.sources (.ofInt 0) with
    | nil =>
        rw [hcase] at hlive
        cases hlive
    | cons newest rest =>
        rw [hcase] at hlive
        refine ⟨newest, text "sent", by rw [hcase]; rfl, ?_⟩
        rw [(List.cons.inj hlive).left]
        rfl

theorem manyDeleted_missed :
    (liveHistory manyDeleted.sources (.ofInt 0)).length < 5000 ∧
      NamesNewest manyDeleted.sources (.ofInt 0) manyDeletedMarker ∧
      (Prog.run exportMachine (fun _ => false)
        (ExportCollector.messages 5000 (.ofInt 0) manyDeletedMarker) manyDeleted).1 ≠
          .ok (exportedMessages manyDeleted.sources (.ofInt 0)) := by
  refine ⟨manyDeleted_names.left, manyDeleted_names.right, ?_⟩
  have hfound : (match (Prog.run exportMachine (fun _ => false)
      (ExportCollector.messages 5000 (.ofInt 0) manyDeletedMarker) manyDeleted).1 with
        | .ok found => found.length
        | .error _ => 1) = 0 := by
    decide
  have hexported : (exportedMessages manyDeleted.sources (.ofInt 0)).length = 1 := by
    decide
  intro h
  rw [h] at hfound
  dsimp only at hfound
  rw [hexported] at hfound
  cases hfound

theorem manyDeleted_messages :
    exists found,
      Prog.run exportMachine (fun _ => false)
        (ExportCollector.messages 5000 (.ofInt 0) manyDeletedMarker) manyDeleted =
          (.ok found, manyDeleted) ∧
      (found = exportedMessages manyDeleted.sources (.ofInt 0) <->
        ¬HiddenByDeletions manyDeleted.sources (.ofInt 0)) :=
  export_messages_iff manyDeleted (.ofInt 0) manyDeleted_names.left manyDeleted_names.right

end ConversationService
