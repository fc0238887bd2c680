import ConversationService.Effects.SanitizedCitations
import ConversationService.Library.FittingPrefixes

/-!
# The whitelist of citations

What `sanitize_citations` is for: of the entries that identify a source it keeps the longest
prefix within its two bounds, without repetitions. Two things come between: a text that cannot
be encoded makes the sanitising raise, and the pattern of the file ids lets a last newline
through.
-/

namespace ConversationService
namespace Citations

open Python FittingPrefixes

/-!
# Valid entries
-/

/-- 1 to 64 characters of `[A-Za-z0-9_-]` and nothing else. -/
def isFileId (s : Text) : Bool :=
  1 ≤ s.length && s.length ≤ 64 && s.all isFileIdChar

def hasFileId (c : Citation) : Bool :=
  isFileId c.fileId

/-- The cleaned entry of an item that identifies a source. -/
def cleanValid (item : Json) : Option Citation :=
  (cleanOne item).filter hasFileId

/-- The different entries with a file id, in input order. -/
def validEntries (items : List Json) : List Citation :=
  (items.filterMap cleanValid).eraseDups

def Within (entries : List Citation) : Prop :=
  entries.length ≤ maxCitations ∧ Fits entries

/-- A time in seconds that may be stored. -/
def IsSeconds (n : Int) : Prop :=
  0 ≤ n ∧ n ≤ maxSeconds

/-- The shape of an entry that has been cleaned from an item. -/
structure IsWhitelisted (fields : List (Text × Json)) (c : Citation) : Prop where
  fileId : isFileId c.fileId = true
  sourceName : c.sourceName.length ≤ maxFieldChars
  sectionName : forall s, c.sectionName = some s -> s ≠ [] ∧ s.length ≤ maxFieldChars
  pageNumber : forall n, c.pageNumber = some n -> 0 ≤ n ∧ n ≤ 100000
  range : c.range.isSome = true <->
    exists n, Json.get fields (text "start_seconds") = .int n ∧ IsSeconds n
  seconds : forall r, c.range = some r -> IsSeconds r.startSeconds ∧
    forall stop, r.endSeconds = some stop -> IsSeconds stop ∧ r.startSeconds ≤ stop
  keys : (entryFields c).map Prod.fst =
    [text "file_id", text "source_name", text "page_number", text "section"] ++
      if c.range.isSome then [text "start_seconds", text "end_seconds"] else []

/-- What sanitising a list has to return. -/
structure Whitelists (items : List Json) (kept : List Citation) : Prop where
  whitelisted : forall c, c ∈ kept -> exists fields, .obj fields ∈ items ∧
    cleanOne (.obj fields) = some c ∧ IsWhitelisted fields c
  nodup : kept.Nodup
  longest : IsLongest Within kept (validEntries items)

/-!
# The bounds
-/

theorem utf8Length_isSome_iff (s : Text) :
    (utf8Length s).isSome = true <-> s.any isSurrogate = false := by
  induction s with
  | nil => simp [utf8Length]
  | cons c rest ih =>
      rw [utf8Length, List.any_cons]
      cases isSurrogate c with
      | true => simp
      | false => simpa using ih

theorem fits_nil : Fits [] := ⟨2, by decide, by decide⟩

theorem within_nil : Within [] := ⟨Nat.zero_le _, fits_nil⟩

theorem dumpsCitations_of_sublist {entries entries' : List Citation}
    (h : List.Sublist entries entries') :
    List.Sublist (dumpsCitations entries) (dumpsCitations entries') := by
  apply dumpsCitations_sublist
  rw [List.sublistForall₂_iff]
  refine ⟨entries, ?_, h⟩
  rw [List.forall₂_same]
  exact fun c _ => List.Sublist.refl _

theorem isClosed_within : IsClosed Within := by
  intro entries c h
  refine ⟨?_, ?_⟩
  · have hlength := h.left
    rw [List.length_append] at hlength
    omega
  · rcases h.right with ⟨size, hsize, hle⟩
    rcases utf8Length_sublist (dumpsCitations_of_sublist (List.sublist_append_left _ _)) hsize with
      ⟨size', hsize', hle'⟩
    exact ⟨size', hsize', hle'.trans hle⟩

instance : DecidablePred Within := fun entries =>
  decidable_of_iff (entries.length ≤ maxCitations ∧
      (utf8Length (dumpsCitations entries)).any (fun n => n ≤ maxJsonBytes) = true) (by
    unfold Within Fits
    rw [Option.any_eq_true]
    simp)

/-!
# What is written of an entry
-/

def isEncodable (c : Citation) : Bool :=
  !c.sourceName.any isSurrogate && !(c.sectionName.any (fun s => s.any isSurrogate))

theorem any_digitChar (d : Nat) (h : d < 16) : isSurrogate (digitChar d) = false := by
  have hval : (digitChar d).val < 0x80 := digitChar_ascii h
  unfold isSurrogate
  simp
  omega

theorem any_jsonChar (c : CodePoint) : (jsonChar c).any isSurrogate = isSurrogate c := by
  unfold jsonChar
  have hsmall : c.val < 0x80 -> isSurrogate c = false := by
    intro h
    unfold isSurrogate
    simp
    omega
  dsimp only
  split_ifs
  -- the escapes that are literals
  any_goals
    rw [hsmall (by omega)]
    decide
  · rw [hsmall (by omega), List.any_append, List.any_cons, List.any_cons,
      any_digitChar _ (by omega), any_digitChar _ (by omega)]
    decide
  · simp

theorem any_jsonString (s : Text) : (jsonString s).any isSurrogate = s.any isSurrogate := by
  have hquote : (text "\"").any isSurrogate = false := by decide
  unfold jsonString
  rw [List.any_append, List.any_append, hquote, List.any_flatMap, Bool.false_or, Bool.or_false]
  congr 1
  funext c
  exact any_jsonChar c

theorem any_of_ascii {s : Text} (h : forall c, c ∈ s -> c.val < 0x80) :
    s.any isSurrogate = false := by
  rw [List.any_eq_false]
  intro c hc
  have hval := h c hc
  unfold isSurrogate
  simp
  omega

theorem any_intText (n : Int) : (intText n).any isSurrogate = false := by
  apply any_of_ascii
  have hdigits : forall c, c ∈ (digitsRev 10 (n.natAbs + 1) n.natAbs).reverse -> c.val < 0x80 :=
    fun c hc => digitsRev_ascii (by omega) (by omega) c (List.mem_reverse.mp hc)
  intro c hc
  unfold intText at hc
  dsimp only at hc
  split at hc
  · rcases List.mem_append.mp hc with hsign | hrest
    · exact ascii_of_all (s := text "-") (by decide) c hsign
    · exact hdigits c hrest
  · exact hdigits c hc

theorem any_jsonOption_int (n : Option Int) :
    (jsonOption intText n).any isSurrogate = false := by
  cases n with
  | none => decide
  | some n => exact any_intText n

theorem any_jsonOption_string (s : Option Text) :
    (jsonOption jsonString s).any isSurrogate = s.any (fun s => s.any isSurrogate) := by
  cases s with
  | none => decide
  | some s => exact any_jsonString s

theorem isFileIdChar_ascii {c : CodePoint} (h : isFileIdChar c = true) : c.val < 0x80 := by
  simp only [isFileIdChar, Bool.or_eq_true, Bool.and_eq_true, decide_eq_true_eq, beq_iff_eq] at h
  omega

/-- The pattern lets a file id through, or one that a newline follows. -/
theorem fileIdMatches_iff {s : Text} :
    fileIdMatches s = true <->
      isFileId s = true ∨ exists body, isFileId body = true ∧ s = body ++ [0x0A] := by
  unfold fileIdMatches
  by_cases hlast : s.getLast? = some 0x0A
  · have hsplit : s = s.dropLast ++ [0x0A] := by
      rcases List.getLast?_eq_some_iff.mp hlast with ⟨body, rfl⟩
      rw [List.dropLast_concat]
    have hnot : isFileId s = false := by
      rw [hsplit]
      simp [isFileId, isFileIdChar]
    simp only [hlast, beq_self_eq_true, if_true]
    constructor
    · intro h
      exact Or.inr ⟨s.dropLast, h, hsplit⟩
    · rintro (h | ⟨body, hbody, rfl⟩)
      · rw [hnot] at h
        cases h
      · rw [List.dropLast_concat]
        exact hbody
  · have hbeq : (s.getLast? == some 0x0A) = false := by simpa using hlast
    simp only [hbeq, Bool.false_eq_true, if_false]
    constructor
    · exact Or.inl
    · rintro (h | ⟨body, _, rfl⟩)
      · exact h
      · exact absurd (by simp) hlast

theorem fileId_ascii {c : Citation} (h : fileIdMatches c.fileId = true) :
    c.fileId.any isSurrogate = false := by
  have hbody : forall s : Text, isFileId s = true -> s.any isSurrogate = false := by
    intro s hs
    unfold isFileId at hs
    simp only [Bool.and_eq_true] at hs
    exact any_of_ascii (fun c hc => isFileIdChar_ascii (List.all_eq_true.mp hs.right c hc))
  rcases fileIdMatches_iff.mp h with h | ⟨body, hmatches, heq⟩
  · exact hbody _ h
  · rw [heq, List.any_append, hbody body hmatches]
    decide

theorem any_dumpCitation {c : Citation} (h : fileIdMatches c.fileId = true) :
    (dumpCitation c).any isSurrogate = !isEncodable c := by
  have hopen : (text "\x7b").any isSurrogate = false := by decide
  have hclose : (text "\x7d").any isSurrogate = false := by decide
  have hfile : (text "\"file_id\":").any isSurrogate = false := by decide
  have hpage : (text ",\"page_number\":").any isSurrogate = false := by decide
  have hsection : (text ",\"section\":").any isSurrogate = false := by decide
  have hname : (text ",\"source_name\":").any isSurrogate = false := by decide
  have hstart : (text ",\"start_seconds\":").any isSurrogate = false := by decide
  have hstop : (text "\"end_seconds\":").any isSurrogate = false := by decide
  have hcomma : (text ",").any isSurrogate = false := by decide
  unfold dumpCitation isEncodable
  cases c.range with
  | none =>
      simp only [List.any_append, List.any_nil, any_jsonString, any_jsonOption_int,
        any_jsonOption_string, fileId_ascii h, hopen, hclose, hfile, hpage, hsection, hname,
        Bool.false_or, Bool.or_false, Bool.not_and, Bool.not_not, Bool.or_comm]
  | some r =>
      simp only [List.any_append, any_jsonString, any_jsonOption_int, any_intText,
        any_jsonOption_string, fileId_ascii h, hopen, hclose, hfile, hpage, hsection, hname,
        hstart, hstop, hcomma, Bool.false_or, Bool.or_false, Bool.not_and, Bool.not_not,
        Bool.or_comm]

theorem any_join (parts : List Text) :
    (join (text ",") parts).any isSurrogate = parts.any (fun part => part.any isSurrogate) := by
  have hcomma : (text ",").any isSurrogate = false := by decide
  induction parts with
  | nil => rfl
  | cons part rest ih =>
      cases rest with
      | nil => simp [join]
      | cons next rest =>
          show (part ++ text "," ++ join (text ",") (next :: rest)).any isSurrogate = _
          rw [List.any_append, List.any_append, hcomma, ih, Bool.or_false]
          rfl

theorem utf8Length_dumpsCitations {entries : List Citation}
    (hmatches : forall c, c ∈ entries -> fileIdMatches c.fileId = true) :
    (utf8Length (dumpsCitations entries)).isSome = true <->
      forall c, c ∈ entries -> isEncodable c = true := by
  have hopen : (text "[").any isSurrogate = false := by decide
  have hclose : (text "]").any isSurrogate = false := by decide
  rw [utf8Length_isSome_iff]
  unfold dumpsCitations
  rw [List.any_append, List.any_append, hopen, hclose, Bool.false_or, Bool.or_false, any_join,
    List.any_map, List.any_eq_false]
  apply forall_congr'
  intro c
  apply imp_congr_right
  intro hc
  show ¬(dumpCitation c).any isSurrogate = true <-> _
  rw [any_dumpCitation (hmatches c hc)]
  simp

/-!
# What sanitising returns
-/

/-- The loop raises in its first round or not at all. -/
theorem shrink_isSome_iff (cleaned : List Citation) :
    (shrink cleaned.length cleaned).isSome = true <->
      cleaned = [] ∨ (utf8Length (dumpsCitations cleaned)).isSome = true := by
  constructor
  · intro h
    cases cleaned with
    | nil => exact Or.inl rfl
    | cons c rest =>
        right
        rw [List.length_cons, shrink, List.isEmpty_cons, if_neg Bool.false_ne_true] at h
        cases hsize : utf8Length (dumpsCitations (c :: rest)) with
        | none =>
            rw [hsize] at h
            cases h
        | some size => rfl
  · rintro (rfl | h)
    · rfl
    · rcases Option.isSome_iff_exists.mp h with ⟨size, hsize⟩
      have hrounds : forall n entries size', utf8Length (dumpsCitations entries) = some size' ->
          (shrink n entries).isSome = true := by
        intro n
        induction n with
        | zero => exact fun _ _ _ => rfl
        | succ n ih =>
            intro entries size' hentries
            rw [shrink]
            split
            · rfl
            · rw [hentries]
              dsimp only
              split
              · rcases utf8Length_sublist
                  (dumpsCitations_of_sublist (List.dropLast_sublist entries)) hentries with
                  ⟨size'', hsize'', _⟩
                exact ih _ _ hsize''
              · rfl
      exact hrounds _ _ _ hsize

/-- The different entries that cleaning gives, without a bound. -/
def cleanedEntries (items : List Json) : List Citation :=
  (items.filterMap cleanOne).eraseDups

theorem entriesOf_eq (items : List Json) :
    entriesOf items = (cleanedEntries items).take maxCitations := rfl

theorem mem_cleanedEntries {items : List Json} {c : Citation} :
    c ∈ cleanedEntries items <-> exists item, item ∈ items ∧ cleanOne item = some c := by
  unfold cleanedEntries
  rw [List.mem_eraseDups, List.mem_filterMap]

theorem fileIdMatches_of_mem {items : List Json} {c : Citation}
    (h : c ∈ cleanedEntries items) : fileIdMatches c.fileId = true := by
  rcases mem_cleanedEntries.mp h with ⟨item, _, hclean⟩
  rcases cleanOne_eq_some hclean with ⟨_, _, _, hmatches, _⟩
  exact hmatches

/-- None of the different entries that are looked at has a text that cannot be encoded. -/
def AllEncodable (items : List Json) : Prop :=
  forall c, c ∈ entriesOf items -> isEncodable c = true

theorem sanitize_isSome_iff (items : List Json) :
    (sanitizeCitations (.arr items)).isSome = true <-> AllEncodable items := by
  rw [sanitizeCitations_arr, shrink_isSome_iff,
    @utf8Length_dumpsCitations (entriesOf items)
      (fun c hc => fileIdMatches_of_mem (List.mem_of_mem_take hc))]
  constructor
  · rintro (hnil | h)
    · intro c hc
      rw [hnil] at hc
      exact absurd hc List.not_mem_nil
    · exact h
  · exact Or.inr

theorem isLongest_of_sanitize {items : List Json} {kept : List Citation}
    (h : sanitizeCitations (.arr items) = some kept) :
    IsLongest Within kept (cleanedEntries items) := by
  have hkeeps := keeps_of_sanitize h
  have hfits : Fits kept := by
    rcases hkeeps.fits with rfl | hfits
    · exact fits_nil
    · exact hfits
  refine ⟨hkeeps.entries.trans (List.take_prefix _ _), ⟨?_, hfits⟩, ?_⟩
  · exact hkeeps.entries.length_le.trans (List.length_take_le _ _)
  · intro other hstart hwithin
    have hentries : other <+: entriesOf items := by
      rw [entriesOf_eq]
      exact List.prefix_take_iff.mpr ⟨hstart, hwithin.left⟩
    exact (hkeeps.longest other hentries hwithin.right).length_le

theorem sanitize_eq {items : List Json} (h : AllEncodable items) :
    sanitizeCitations (.arr items) = some (longest Within (cleanedEntries items)) := by
  rcases Option.isSome_iff_exists.mp ((sanitize_isSome_iff items).mpr h) with ⟨kept, hkept⟩
  rw [hkept, (isLongest_iff isClosed_within within_nil).mp (isLongest_of_sanitize hkept)]

/-!
# The shape of an entry
-/

theorem intOf_eq_some_iff {value : Json} {upper n : Int} :
    intOf value upper = some n <-> value = .int n ∧ 0 ≤ n ∧ n ≤ upper := by
  cases value with
  | int m =>
      unfold intOf
      dsimp only
      split
      · rename_i hbounds
        simp only [Option.some_inj, Json.int.injEq]
        constructor
        · rintro rfl
          exact ⟨rfl, hbounds⟩
        · exact And.left
      · rename_i hbounds
        simp only [Json.int.injEq]
        constructor
        · intro h
          cases h
        · rintro ⟨rfl, h⟩
          exact absurd h hbounds
  | _ => simp [intOf]

theorem length_textOf {value : Json} {t : Text} (h : textOf value = some t) :
    t ≠ [] ∧ t.length ≤ maxFieldChars := by
  rcases textOf_eq_some_iff.mp h with ⟨s, _, ht, hne⟩
  refine ⟨hne, ?_⟩
  rw [ht]
  exact List.length_take_le _ _

theorem isWhitelisted_of_cleanOne {fields : List (Text × Json)} {c : Citation}
    (h : cleanOne (.obj fields) = some c) (hid : hasFileId c = true) :
    IsWhitelisted fields c := by
  rcases cleanOne_eq_some h with ⟨fields', hfields, _, _, hname, hpage, hsection, hrange⟩
  cases hfields
  refine ⟨hid, ?_, ?_, ?_, ?_, ?_, ?_⟩
  · rw [hname]
    cases htext : textOf (Json.get fields (text "source_name")) with
    | none => exact Nat.zero_le _
    | some t => exact (length_textOf htext).right
  · intro s hs
    rw [hsection] at hs
    exact length_textOf hs
  · intro n hn
    rw [hpage] at hn
    exact (intOf_eq_some_iff.mp hn).right
  · rw [hrange]
    unfold cleanRange
    cases hstart : intOf (Json.get fields (text "start_seconds")) maxSeconds with
    | none =>
        refine iff_of_false Bool.false_ne_true ?_
        rintro ⟨n, hn, hseconds⟩
        rw [intOf_eq_some_iff.mpr ⟨hn, hseconds⟩] at hstart
        cases hstart
    | some start => exact iff_of_true rfl ⟨start, intOf_eq_some_iff.mp hstart⟩
  · intro r hr
    rw [hrange] at hr
    unfold cleanRange at hr
    split at hr
    · rename_i start hstart
      cases hr
      refine ⟨(intOf_eq_some_iff.mp hstart).right, ?_⟩
      intro stop hstop
      rcases Option.filter_eq_some_iff.mp hstop with ⟨hint, hle⟩
      exact ⟨(intOf_eq_some_iff.mp hint).right, of_decide_eq_true hle⟩
    · cases hr
  · unfold entryFields
    cases c.range with
    | none => rfl
    | some r => rfl

theorem validEntries_eq (items : List Json) :
    validEntries items = (cleanedEntries items).filter hasFileId := by
  unfold validEntries cleanedEntries
  rw [← Distinct.eraseDups_filter, List.filter_filterMap]
  rfl

/-!
# The whitelist
-/

/-- Sanitising does not raise, and returns what it has to. -/
def Sanitizes (raw : Json) : Prop :=
  exists kept, sanitizeCitations raw = some kept ∧ Whitelists (itemsOf raw) kept

/--
At the first entry whose file id ends in a newline there is still room: for this entry, or
for the next one with a file id.
-/
def NewlineDisplaces (items : List Json) : Prop :=
  exists before b after, cleanedEntries items = before ++ b :: after ∧
    (forall c, c ∈ before -> hasFileId c = true) ∧ hasFileId b = false ∧ Within before ∧
    (Within (before ++ [b]) ∨
      exists c, (after.filter hasFileId).head? = some c ∧ Within (before ++ [c]))

theorem split_first {alpha : Type} (p : alpha -> Bool) (l : List alpha) :
    (forall a, a ∈ l -> p a = true) ∨
      exists before b after, l = before ++ b :: after ∧
        (forall a, a ∈ before -> p a = true) ∧ p b = false := by
  induction l with
  | nil => exact Or.inl (fun _ h => absurd h List.not_mem_nil)
  | cons a rest ih =>
      cases ha : p a with
      | false => exact Or.inr ⟨[], a, rest, rfl, fun _ h => absurd h List.not_mem_nil, ha⟩
      | true =>
          rcases ih with hall | ⟨before, b, after, rfl, hbefore, hb⟩
          · exact Or.inl (List.forall_mem_cons.mpr ⟨ha, hall⟩)
          · exact Or.inr ⟨a :: before, b, after, rfl, List.forall_mem_cons.mpr ⟨ha, hbefore⟩, hb⟩

/-- Entries without a file id change nothing exactly if they displace none. -/
theorem longest_valid_iff (items : List Json) :
    longest Within (cleanedEntries items) = longest Within (validEntries items) <->
      ¬NewlineDisplaces items := by
  rw [validEntries_eq]
  constructor
  · rintro heq ⟨before, b, after, hsplit, hbefore, hb, hroom⟩
    rw [hsplit] at heq
    exact (longest_eq_filter_iff isClosed_within within_nil hbefore hb).mp heq hroom
  · intro hnot
    rcases split_first hasFileId (cleanedEntries items) with
      hall | ⟨before, b, after, hsplit, hbefore, hb⟩
    · rw [List.filter_eq_self.mpr hall]
    · rw [hsplit]
      apply (longest_eq_filter_iff isClosed_within within_nil hbefore hb).mpr
      intro hroom
      exact hnot ⟨before, b, after, hsplit, hbefore, hb, hroom⟩

theorem whitelists_longest (items : List Json) :
    Whitelists items (longest Within (validEntries items)) := by
  have hlongest := isLongest_longest isClosed_within within_nil (validEntries items)
  refine ⟨?_, ?_, hlongest⟩
  · intro c hc
    have hvalid := hlongest.isPrefix.subset hc
    rw [validEntries_eq] at hvalid
    rcases List.mem_filter.mp hvalid with ⟨hmem, hid⟩
    rcases mem_cleanedEntries.mp hmem with ⟨item, hitem, hclean⟩
    rcases cleanOne_eq_some hclean with ⟨fields, rfl, _⟩
    exact ⟨fields, hitem, hclean, isWhitelisted_of_cleanOne hclean hid⟩
  · exact hlongest.isPrefix.sublist.nodup (Distinct.nodup_eraseDups _)

theorem sanitizes_list_iff (items : List Json) :
    Sanitizes (.arr items) <-> AllEncodable items ∧ ¬NewlineDisplaces items := by
  rw [← longest_valid_iff]
  constructor
  · rintro ⟨kept, hkept, hwhitelists⟩
    have hencodable : AllEncodable items :=
      (sanitize_isSome_iff items).mp (by rw [hkept]; rfl)
    refine ⟨hencodable, ?_⟩
    rw [sanitize_eq hencodable] at hkept
    cases hkept
    exact (isLongest_iff isClosed_within within_nil).mp hwhitelists.longest
  · rintro ⟨hencodable, heq⟩
    refine ⟨_, sanitize_eq hencodable, ?_⟩
    rw [heq]
    exact whitelists_longest items

/--
For every JSON value, sanitising is the whitelist that it is meant to be exactly if the texts
of the entries that it looks at can be encoded, and no file id with a newline takes a place.
-/
theorem sanitizes_iff (raw : Json) :
    Sanitizes raw <-> AllEncodable (itemsOf raw) ∧ ¬NewlineDisplaces (itemsOf raw) := by
  rw [← sanitizes_list_iff]
  unfold Sanitizes
  rw [sanitize_itemsOf raw]
  rfl

/-- The file id of a reference that ends in a newline. -/
def newlineReference : Json :=
  .arr [.obj [(text "file_id", .str (text "a\n"))]]

theorem sanitize_keeps_newline :
    exists c, sanitizeCitations newlineReference = some [c] ∧ c.fileId = text "a\n" ∧
      ¬Sanitizes newlineReference := by
  have hkept : sanitizeCitations newlineReference =
      some [⟨text "a\n", [], none, none, none⟩] := by
    decide
  refine ⟨_, hkept, rfl, ?_⟩
  rintro ⟨kept, hkept', hwhitelists⟩
  rw [hkept] at hkept'
  cases hkept'
  rcases hwhitelists.whitelisted _ List.mem_cons_self with ⟨fields, _, _, hshape⟩
  exact absurd hshape.fileId (by decide)

end Citations
end ConversationService
