import Mathlib.Data.List.Flatten
import ConversationService.Library.Distinct
import ConversationService.Model.Citations
import ConversationService.Python.Encoding
import ConversationService.Python.Strip

/-!
# What sanitising keeps

Cleaning keeps an entry's whitelisted fields, with its texts stripped and then cut. The
cut may leave a blank at the end of a text, which the next cleaning strips.
-/

namespace ConversationService
namespace Citations

open Python

/-!
# Texts
-/

theorem textOf_eq_some_iff {value : Json} {t : Text} :
    textOf value = some t <->
      exists s, value = .str s ∧ t = (strip s).take maxFieldChars ∧ t ≠ [] := by
  cases value with
  | str s =>
      unfold textOf
      dsimp only
      split
      · rename_i hempty
        rw [List.isEmpty_iff] at hempty
        constructor
        · intro h
          cases h
        · rintro ⟨s', hs, ht, hne⟩
          cases hs
          exact absurd (ht.trans hempty) hne
      · rename_i hempty
        rw [List.isEmpty_iff] at hempty
        constructor
        · intro h
          cases h
          exact ⟨s, rfl, rfl, hempty⟩
        · rintro ⟨s', hs, ht, _⟩
          cases hs
          rw [ht]
  | _ =>
      constructor
      · intro h
        cases h
      · rintro ⟨s, hs, _⟩
        cases hs

theorem textOf_str_of_textOf {value : Json} {t : Text} (h : textOf value = some t) :
    textOf (.str t) = some (strip t) := by
  rcases textOf_eq_some_iff.mp h with ⟨s, rfl, ht, hne⟩
  have hstart : t <+: strip s := ht ▸ List.take_prefix _ _
  have hlength : t.length ≤ maxFieldChars := by
    rw [ht]
    exact List.length_take_le _ _
  rw [textOf_eq_some_iff]
  refine ⟨t, rfl, ?_, ?_⟩
  · exact (List.take_of_length_le ((length_strip_le t).trans hlength)).symm
  · exact strip_prefix_ne_nil hstart hne

/-- The text of a field ends in a blank when its last character before the cut is one. -/
def BlankAtCut (value : Json) : Prop :=
  exists s c, value = .str s ∧ (strip s)[maxFieldChars - 1]? = some c ∧ isSpace c = true

theorem endsInBlank_textOf_iff {value : Json} {t : Text} (h : textOf value = some t) :
    EndsInBlank t <-> BlankAtCut value := by
  rcases textOf_eq_some_iff.mp h with ⟨s, rfl, rfl, _⟩
  rw [show maxFieldChars = 299 + 1 from rfl, endsInBlank_take_iff]
  constructor
  · rintro ⟨c, hc, hspace⟩
    exact ⟨s, c, rfl, hc, hspace⟩
  · rintro ⟨s', c, hs, hc, hspace⟩
    cases hs
    exact ⟨c, hc, hspace⟩

theorem strip_textOf_iff {value : Json} {t : Text} (h : textOf value = some t) :
    strip t = t <-> ¬BlankAtCut value := by
  have hblank := endsInBlank_textOf_iff h
  rcases textOf_eq_some_iff.mp h with ⟨s, rfl, ht, _⟩
  rw [← hblank]
  exact strip_prefix_iff (ht ▸ List.take_prefix _ _)

/-!
# Entries
-/

def numberJson : Option Int -> Json
  | some n => .int n
  | none => .null

def stringJson : Option Text -> Json
  | some s => .str s
  | none => .null

def rangeFields : Option CitationRange -> List (Text × Json)
  | some r =>
      [(text "start_seconds", .int r.startSeconds),
        (text "end_seconds", numberJson r.endSeconds)]
  | none => []

def entryFields (c : Citation) : List (Text × Json) :=
  [(text "file_id", .str c.fileId), (text "source_name", .str c.sourceName),
    (text "page_number", numberJson c.pageNumber),
    (text "section", stringJson c.sectionName)] ++ rangeFields c.range

def entryJson (c : Citation) : Json :=
  .obj (entryFields c)

theorem toJson_eq (citations : List Citation) :
    toJson citations = .arr (citations.map entryJson) := rfl

theorem numberJson_injective : Function.Injective numberJson := by
  intro n n' h
  cases n <;> cases n' <;> cases h <;> rfl

theorem stringJson_injective : Function.Injective stringJson := by
  intro s s' h
  cases s <;> cases s' <;> cases h <;> rfl

theorem entryJson_injective : Function.Injective entryJson := by
  intro c c' h
  rcases c with ⟨fileId, sourceName, pageNumber, sectionName, range⟩
  rcases c' with ⟨fileId', sourceName', pageNumber', sectionName', range'⟩
  have hfields := Json.obj.inj h
  unfold entryFields at hfields
  simp only [List.cons_append, List.nil_append, List.cons.injEq, Prod.mk.injEq, true_and,
    Json.str.injEq] at hfields
  rcases hfields with ⟨rfl, rfl, hpage, hsection, hrange⟩
  rw [numberJson_injective hpage, stringJson_injective hsection]
  cases range with
  | none =>
      cases range' with
      | none => rfl
      | some r' => cases hrange
  | some r =>
      cases range' with
      | none => cases hrange
      | some r' =>
          rcases r with ⟨start, stop⟩
          rcases r' with ⟨start', stop'⟩
          unfold rangeFields at hrange
          simp only [List.cons.injEq, Prod.mk.injEq, true_and, Json.int.injEq, and_true]
            at hrange
          rw [hrange.left, numberJson_injective hrange.right]

theorem toJson_injective : Function.Injective toJson := by
  intro kept kept' h
  exact entryJson_injective.list_map (Json.arr.inj h)

/-- What cleaning makes of the texts of a citation that has been cleaned. -/
def trimmed (c : Citation) : Citation :=
  { c with
    sourceName := strip c.sourceName
    sectionName := c.sectionName.map strip }

/-- A citation as cleaning leaves it. -/
def Cleaned (c : Citation) : Prop :=
  exists raw, cleanOne raw = some c

theorem cleanOne_eq_some {raw : Json} {c : Citation} (h : cleanOne raw = some c) :
    exists fields, raw = .obj fields ∧
      Json.get fields (text "file_id") = .str c.fileId ∧ fileIdMatches c.fileId = true ∧
      c.sourceName = (textOf (Json.get fields (text "source_name"))).getD [] ∧
      c.pageNumber = intOf (Json.get fields (text "page_number")) 100000 ∧
      c.sectionName = textOf (Json.get fields (text "section")) ∧
      c.range = cleanRange fields := by
  unfold cleanOne at h
  split at h
  · rename_i fields
    split at h
    · rename_i fileId hfile
      split at h
      · rename_i hmatches
        cases h
        exact ⟨fields, rfl, hfile, hmatches, rfl, rfl, rfl, rfl⟩
      · cases h
    · cases h
  · cases h

/-!
# Cleaning once more
-/

theorem intOf_numberJson {value : Json} {upper : Int} {n : Option Int}
    (h : n = intOf value upper) : intOf (numberJson n) upper = n := by
  cases n with
  | none => rfl
  | some n =>
      unfold intOf at h
      split at h
      · split at h
        · rename_i hbounds
          cases h
          exact if_pos hbounds
        · cases h
      · cases h

theorem textOf_stringJson {value : Json} {s : Option Text} (h : s = textOf value) :
    textOf (stringJson s) = s.map strip := by
  cases s with
  | none => rfl
  | some t => exact textOf_str_of_textOf h.symm

theorem textOf_sourceName {value : Json} {s : Text} (h : s = (textOf value).getD []) :
    (textOf (.str s)).getD [] = strip s := by
  cases hvalue : textOf value with
  | none =>
      rw [hvalue] at h
      rw [h]
      rfl
  | some t =>
      rw [hvalue] at h
      rw [h]
      show (textOf (.str t)).getD [] = strip t
      rw [textOf_str_of_textOf hvalue]
      rfl

theorem cleanRange_entryFields {fields : List (Text × Json)} {c : Citation}
    (h : c.range = cleanRange fields) : cleanRange (entryFields c) = c.range := by
  unfold cleanRange at h
  rcases c with ⟨fileId, sourceName, pageNumber, sectionName, range⟩
  dsimp only at h
  cases range with
  | none => rfl
  | some r =>
      rcases r with ⟨start, stop⟩
      split at h
      · rename_i start' hstart
        cases h
        have hstart' : intOf (.int start) maxSeconds = some start :=
          intOf_numberJson hstart.symm
        have hstop : (intOf (numberJson ((intOf (Json.get fields (text "end_seconds"))
            maxSeconds).filter (fun e => start ≤ e))) maxSeconds).filter (fun e => start ≤ e) =
            (intOf (Json.get fields (text "end_seconds")) maxSeconds).filter
              (fun e => start ≤ e) := by
          cases hcut : (intOf (Json.get fields (text "end_seconds")) maxSeconds).filter
            (fun e => start ≤ e) with
          | none => rfl
          | some e =>
              rcases Option.filter_eq_some_iff.mp hcut with ⟨hint, hle⟩
              rw [intOf_numberJson hint.symm, Option.filter_eq_some_iff]
              exact ⟨rfl, hle⟩
        show (match intOf (.int start) maxSeconds with
          | some start' => some (CitationRange.mk start' ((intOf (numberJson _)
              maxSeconds).filter (fun e => start' ≤ e)))
          | none => none) = _
        rw [hstart']
        dsimp only
        rw [hstop]
      · cases h

theorem cleanOne_entryJson {c : Citation} (h : Cleaned c) :
    cleanOne (entryJson c) = some (trimmed c) := by
  rcases h with ⟨raw, hraw⟩
  rcases cleanOne_eq_some hraw with ⟨fields, _, _, hmatches, hname, hpage, hsection, hrange⟩
  have hfile : Json.get (entryFields c) (text "file_id") = .str c.fileId := rfl
  have hcleaned : cleanOne (entryJson c) = some
      { fileId := c.fileId
        sourceName := (textOf (.str c.sourceName)).getD []
        pageNumber := intOf (numberJson c.pageNumber) 100000
        sectionName := textOf (stringJson c.sectionName)
        range := cleanRange (entryFields c) } := by
    show (if fileIdMatches c.fileId then _ else _) = _
    rw [if_pos hmatches]
    rfl
  rw [hcleaned, textOf_sourceName hname, intOf_numberJson hpage, textOf_stringJson hsection,
    cleanRange_entryFields hrange]
  rfl

theorem trimmed_trimmed (c : Citation) : trimmed (trimmed c) = trimmed c := by
  rcases c with ⟨fileId, sourceName, pageNumber, sectionName, range⟩
  unfold trimmed
  dsimp only
  rw [strip_strip]
  cases sectionName with
  | none => rfl
  | some s =>
      show Citation.mk _ _ _ (some (strip (strip s))) _ = _
      rw [strip_strip]
      rfl

theorem textOf_ne_none_of_blankAtCut {value : Json} (h : BlankAtCut value) :
    textOf value ≠ none := by
  rcases h with ⟨s, c, rfl, hc, _⟩
  intro hnone
  have hcut : (strip s).take maxFieldChars ≠ [] := by
    intro hnil
    rcases List.take_eq_nil_iff.mp hnil with hzero | hempty
    · cases hzero
    · rw [hempty] at hc
      cases hc
  have hsome : textOf (.str s) = some ((strip s).take maxFieldChars) :=
    textOf_eq_some_iff.mpr ⟨s, rfl, rfl, hcut⟩
  rw [hnone] at hsome
  cases hsome

/-- The texts of an entry are kept whole, or cut behind a character that is no blank. -/
def CutsClean (fields : List (Text × Json)) : Prop :=
  ¬BlankAtCut (Json.get fields (text "source_name")) ∧
    ¬BlankAtCut (Json.get fields (text "section"))

theorem trimmed_eq_iff {fields : List (Text × Json)} {c : Citation}
    (h : cleanOne (.obj fields) = some c) : trimmed c = c <-> CutsClean fields := by
  rcases cleanOne_eq_some h with ⟨fields', hfields, _, _, hname, _, hsection, _⟩
  cases hfields
  have hsource : strip c.sourceName = c.sourceName <->
      ¬BlankAtCut (Json.get fields (text "source_name")) := by
    rw [hname]
    cases htext : textOf (Json.get fields (text "source_name")) with
    | none => exact iff_of_true rfl (fun hblank => textOf_ne_none_of_blankAtCut hblank htext)
    | some t => exact strip_textOf_iff htext
  have hsectionName : c.sectionName.map strip = c.sectionName <->
      ¬BlankAtCut (Json.get fields (text "section")) := by
    rw [hsection]
    cases htext : textOf (Json.get fields (text "section")) with
    | none => exact iff_of_true rfl (fun hblank => textOf_ne_none_of_blankAtCut hblank htext)
    | some t =>
        rw [← strip_textOf_iff htext]
        simp
  rw [CutsClean, ← hsource, ← hsectionName]
  rcases c with ⟨fileId, sourceName, pageNumber, sectionName, range⟩
  simp [trimmed]

/-!
# Lists
-/

def itemsOf (value : Json) : List Json :=
  match value with
  | .arr items => items
  | _ => []

theorem sanitize_itemsOf (value : Json) :
    sanitizeCitations value = sanitizeCitations (.arr (itemsOf value)) := by
  cases value <;> rfl

/-- The different entries of a list, as many as may be kept. -/
def entriesOf (items : List Json) : List Citation :=
  (items.filterMap cleanOne).eraseDups.take maxCitations

theorem collect_eq (items : List Json) (before : List Citation)
    (h : before.eraseDups.length < maxCitations) :
    collect before.eraseDups items =
      (before ++ items.filterMap cleanOne).eraseDups.take maxCitations := by
  induction items generalizing before with
  | nil =>
      rw [List.filterMap_nil, List.append_nil, List.take_of_length_le (by omega)]
      rfl
  | cons item rest ih =>
      rw [collect]
      cases hclean : cleanOne item with
      | none =>
          rw [List.filterMap_cons_none hclean]
          exact ih before h
      | some c =>
          rw [List.filterMap_cons_some hclean]
          have hsplit : before ++ c :: rest.filterMap cleanOne =
              (before ++ [c]) ++ rest.filterMap cleanOne := by simp
          rw [hsplit]
          dsimp only
          by_cases hmem : c ∈ before
          · have hsame : (before ++ [c]).eraseDups = before.eraseDups := by
              rw [Distinct.eraseDups_concat, if_pos hmem]
            rw [if_pos (List.mem_eraseDups.mpr hmem), ← hsame]
            exact ih (before ++ [c]) (by rw [hsame]; exact h)
          · have hnew : (before ++ [c]).eraseDups = before.eraseDups ++ [c] := by
              rw [Distinct.eraseDups_concat, if_neg hmem]
            rw [if_neg (fun hdup => hmem (List.mem_eraseDups.mp hdup)), ← hnew]
            split
            · rename_i hfull
              have hlength : (before ++ [c]).eraseDups.length = maxCitations := by
                rw [hnew, List.length_append, List.length_singleton] at hfull ⊢
                omega
              have hall : ((before ++ [c]) ++ rest.filterMap cleanOne).eraseDups =
                  (before ++ [c]).eraseDups ++
                    ((rest.filterMap cleanOne).removeAll (before ++ [c])).eraseDups :=
                List.eraseDups_append
              rw [hall, ← hlength, List.take_left]
            · rename_i hroom
              exact ih (before ++ [c]) (by omega)

theorem collect_nil (items : List Json) : collect [] items = entriesOf items :=
  collect_eq items [] (by decide)

/-- The stored text of the entries is not too long. -/
def Fits (entries : List Citation) : Prop :=
  exists n, utf8Length (dumpsCitations entries) = some n ∧ n ≤ maxJsonBytes

/-- What is kept is the longest beginning that fits. -/
theorem shrink_spec {n : Nat} {cleaned kept : List Citation} (hn : cleaned.length ≤ n)
    (h : shrink n cleaned = some kept) :
    kept <+: cleaned ∧ (kept = [] ∨ Fits kept) ∧
      forall entries, entries <+: cleaned -> Fits entries -> entries <+: kept := by
  induction n generalizing cleaned with
  | zero =>
      cases h
      have hnil : kept = [] := List.length_eq_zero_iff.mp (by omega)
      exact ⟨List.prefix_refl _, Or.inl hnil, fun _ hentries _ => hentries⟩
  | succ n ih =>
      rw [shrink] at h
      split at h
      · rename_i hempty
        cases h
        exact ⟨List.prefix_refl _, Or.inl (List.isEmpty_iff.mp hempty),
          fun _ hentries _ => hentries⟩
      · split at h
        · cases h
        · rename_i size hsize
          split at h
          · rename_i htoo
            have hshort : cleaned.dropLast.length ≤ n := by
              rw [List.length_dropLast]
              omega
            rcases ih hshort h with ⟨hstart, hfits, hlongest⟩
            refine ⟨hstart.trans (List.dropLast_prefix _), hfits, ?_⟩
            intro entries hentries hfit
            have hne : entries ≠ cleaned := by
              intro heq
              rcases hfit with ⟨m, hm, hle⟩
              rw [heq, hsize] at hm
              cases hm
              omega
            have hlength : entries.length ≤ cleaned.dropLast.length := by
              rw [List.length_dropLast]
              have hle := hentries.length_le
              have hlt : entries.length ≠ cleaned.length :=
                fun heq => hne (hentries.eq_of_length heq)
              omega
            exact hlongest entries
              (List.prefix_of_prefix_length_le hentries (List.dropLast_prefix _) hlength) hfit
          · rename_i hfit
            cases h
            exact ⟨List.prefix_refl _, Or.inr ⟨size, hsize, by omega⟩,
              fun _ hentries _ => hentries⟩

theorem shrink_of_fits {cleaned : List Citation} (h : cleaned = [] ∨ Fits cleaned)
    (n : Nat) : shrink n cleaned = some cleaned := by
  cases n with
  | zero => rfl
  | succ n =>
      rw [shrink]
      split
      · rfl
      · rename_i hempty
        rcases h with rfl | ⟨size, hsize, hle⟩
        · exact absurd rfl hempty
        · rw [hsize]
          exact if_neg (by omega)

/-!
# Stored texts
-/

theorem dumpCitation_trimmed (c : Citation) :
    List.Sublist (dumpCitation (trimmed c)) (dumpCitation c) := by
  have hstring : forall s, List.Sublist (jsonString (strip s)) (jsonString s) := by
    intro s
    exact ((List.Sublist.refl _).append ((strip_sublist s).flatMap jsonChar)).append
      (List.Sublist.refl _)
  rcases c with ⟨fileId, sourceName, pageNumber, sectionName, range⟩
  have hsection : List.Sublist (jsonOption jsonString (sectionName.map strip))
      (jsonOption jsonString sectionName) := by
    cases sectionName with
    | none => exact List.Sublist.refl _
    | some s => exact hstring s
  unfold dumpCitation trimmed
  dsimp only
  have hsame : forall t : Text, List.Sublist t t := List.Sublist.refl
  exact ((((((((((hsame _).append (hsame _)).append (hsame _)).append (hsame _)).append
    (hsame _)).append (hsame _)).append (hsame _)).append hsection).append (hsame _)).append
      (hstring _)).append (hsame _) |>.append (hsame _)

theorem dumpsCitations_sublist {entries entries' : List Citation}
    (h : List.SublistForall₂ (fun c c' => List.Sublist (dumpCitation c) (dumpCitation c'))
      entries entries') :
    List.Sublist (dumpsCitations entries) (dumpsCitations entries') := by
  have hparts : List.SublistForall₂ List.Sublist (entries.map dumpCitation)
      (entries'.map dumpCitation) := by
    rw [List.sublistForall₂_map_left_iff, List.sublistForall₂_map_right_iff]
    exact h
  exact ((List.Sublist.refl _).append (join_sublist hparts)).append (List.Sublist.refl _)

theorem fits_trimmed {kept : List Citation} (h : Fits kept) :
    Fits (kept.map trimmed).eraseDups := by
  rcases h with ⟨size, hsize, hle⟩
  rcases List.sublist_map_iff.mp (Distinct.eraseDups_sublist (kept.map trimmed)) with
    ⟨some', hsub, heq⟩
  have hdumps : List.Sublist (dumpsCitations (kept.map trimmed).eraseDups)
      (dumpsCitations kept) := by
    apply dumpsCitations_sublist
    rw [heq, List.sublistForall₂_map_left_iff, List.sublistForall₂_iff]
    refine ⟨some', ?_, hsub⟩
    rw [List.forall₂_same]
    intro c _
    exact dumpCitation_trimmed c
  rcases utf8Length_sublist hdumps hsize with ⟨size', hsize', hle'⟩
  exact ⟨size', hsize', hle'.trans hle⟩

/-!
# Sanitising
-/

theorem sanitizeCitations_arr (items : List Json) :
    sanitizeCitations (.arr items) = shrink (entriesOf items).length (entriesOf items) := by
  unfold sanitizeCitations
  dsimp only
  rw [collect_nil]

/-- The longest beginning of the entries that fits. -/
structure Keeps (items : List Json) (kept : List Citation) : Prop where
  entries : kept <+: entriesOf items
  fits : kept = [] ∨ Fits kept
  longest : forall entries, entries <+: entriesOf items -> Fits entries -> entries <+: kept

theorem keeps_of_sanitize {items : List Json} {kept : List Citation}
    (h : sanitizeCitations (.arr items) = some kept) : Keeps items kept := by
  rw [sanitizeCitations_arr] at h
  rcases shrink_spec (Nat.le_refl _) h with ⟨hentries, hfits, hlongest⟩
  exact ⟨hentries, hfits, hlongest⟩

theorem Keeps.item {items : List Json} {kept : List Citation} (h : Keeps items kept)
    {c : Citation} (hc : c ∈ kept) : exists item, item ∈ items ∧ cleanOne item = some c := by
  have hentry := List.mem_of_mem_take (h.entries.subset hc)
  exact List.mem_filterMap.mp (List.mem_eraseDups.mp hentry)

theorem Keeps.nodup {items : List Json} {kept : List Citation} (h : Keeps items kept) :
    kept.Nodup :=
  h.entries.sublist.nodup ((List.take_sublist _ _).nodup (Distinct.nodup_eraseDups _))

theorem sanitize_again {items : List Json} {kept : List Citation} (h : Keeps items kept) :
    sanitizeCitations (toJson kept) = some (kept.map trimmed).eraseDups := by
  have hcleaned : (kept.map entryJson).filterMap cleanOne = kept.map trimmed := by
    rw [List.filterMap_map, ← List.filterMap_eq_map]
    apply List.filterMap_congr
    intro c hc
    rcases h.item hc with ⟨item, _, hclean⟩
    exact cleanOne_entryJson ⟨item, hclean⟩
  have hcount : (kept.map trimmed).eraseDups.length ≤ maxCitations := by
    have hshort := (Distinct.eraseDups_sublist (kept.map trimmed)).length_le
    rw [List.length_map] at hshort
    have hkept := h.entries.length_le
    exact hshort.trans (hkept.trans (List.length_take_le _ _))
  have hentries : entriesOf (kept.map entryJson) = (kept.map trimmed).eraseDups := by
    unfold entriesOf
    rw [hcleaned, List.take_of_length_le hcount]
  rw [toJson_eq, sanitizeCitations_arr, hentries]
  apply shrink_of_fits
  rcases h.fits with rfl | hfits
  · exact Or.inl rfl
  · exact Or.inr (fits_trimmed hfits)

theorem keeps_again {items : List Json} {kept : List Citation} (h : Keeps items kept) :
    Keeps (kept.map entryJson) (kept.map trimmed).eraseDups :=
  keeps_of_sanitize (toJson_eq kept ▸ sanitize_again h)

theorem sanitize_stable {items : List Json} {kept : List Citation} (h : Keeps items kept) :
    sanitizeCitations (toJson (kept.map trimmed).eraseDups) =
      some (kept.map trimmed).eraseDups := by
  have htrimmed : (kept.map trimmed).eraseDups.map trimmed = (kept.map trimmed).eraseDups := by
    conv_rhs => rw [← List.map_id (kept.map trimmed).eraseDups]
    apply List.map_congr_left
    intro c hc
    rcases List.mem_map.mp (List.mem_eraseDups.mp hc) with ⟨c', _, rfl⟩
    exact trimmed_trimmed c'
  rw [sanitize_again (keeps_again h), htrimmed,
    Distinct.eraseDups_of_nodup (Distinct.nodup_eraseDups _)]

theorem trimmed_eq_self_iff {items : List Json} {kept : List Citation} (h : Keeps items kept) :
    (kept.map trimmed).eraseDups = kept <-> forall c, c ∈ kept -> trimmed c = c := by
  constructor
  · intro heq c hc
    rw [← heq] at hc
    rcases List.mem_map.mp (List.mem_eraseDups.mp hc) with ⟨c', _, rfl⟩
    exact trimmed_trimmed c'
  · intro hall
    have hmap : kept.map trimmed = kept := by
      conv_rhs => rw [← List.map_id kept]
      exact List.map_congr_left hall
    rw [hmap, Distinct.eraseDups_of_nodup h.nodup]

/--
No entry that is kept has a text with a blank before the cut: not among the different
entries up to the fiftieth, as far as their text fits.
-/
def KeepsCutClean (items : List Json) : Prop :=
  forall entries, entries <+: entriesOf items -> Fits entries ->
    forall fields c, Json.obj fields ∈ items -> cleanOne (.obj fields) = some c ->
      c ∈ entries -> CutsClean fields

/-- The second pass gives what the first one gave exactly when the cuts are clean. -/
theorem sanitize_again_iff {items : List Json} {kept : List Citation} (h : Keeps items kept) :
    sanitizeCitations (toJson kept) = some kept <-> KeepsCutClean items := by
  rw [sanitize_again h, Option.some_inj, trimmed_eq_self_iff h]
  constructor
  · intro hall entries hentries hfits fields c _ hclean hc
    exact (trimmed_eq_iff hclean).mp (hall c ((h.longest entries hentries hfits).subset hc))
  · intro hclean c hc
    rcases h.item hc with ⟨item, hitem, hcleanOne⟩
    rcases cleanOne_eq_some hcleanOne with ⟨fields, rfl, _⟩
    rcases h.fits with rfl | hfits
    · cases hc
    · exact (trimmed_eq_iff hcleanOne).mpr
        (hclean kept h.entries hfits fields c hitem hcleanOne hc)

end Citations
end ConversationService
