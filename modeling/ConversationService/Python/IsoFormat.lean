import Mathlib.Data.List.GetD
import ConversationService.Python.Calendar
import ConversationService.Python.Encoding
import ConversationService.Python.Utf8

/-!
# Times as text (`datetime.isoformat`, `datetime.fromisoformat`)

The reader follows the C implementation, which goes over the bytes of the text with pointers:
what is behind the end reads as a null character, and a null character as the end.
-/

namespace ConversationService
namespace Python
namespace IsoFormat

/-- The time of a day. -/
structure Clock where
  hour : Nat
  minute : Nat
  second : Nat
  microsecond : Nat
deriving DecidableEq, Repr

def midnight : Clock := ⟨0, 0, 0, 0⟩

/-- What a text says: a date, a time of the day and the offset in microseconds, if it has one. -/
structure Fields where
  date : Calendar.Date
  clock : Clock
  offset : Option Int
deriving DecidableEq, Repr

/-!
# Digits
-/

def isDigit (c : CodePoint) : Bool :=
  0x30 ≤ c.val && c.val ≤ 0x39

/-- `parse_digits`, behind a number that has been read. -/
def parseDigits : Nat -> Nat -> Text -> Option (Nat × Text)
  | 0, n, p => some (n, p)
  | _ + 1, _, [] => none
  | count + 1, n, c :: p =>
      if isDigit c then parseDigits count (n * 10 + (c.val - 0x30)) p else none

/-- `*p` -/
def peek (p : Text) : CodePoint := p.headD 0

/-- A number in as many digits. -/
def padded : Nat -> Nat -> Text
  | 0, _ => []
  | count + 1, n => padded count (n / 10) ++ [digitChar (n % 10)]

/-!
# Dates
-/

/-- `_find_isoformat_datetime_separator`, with `none` for -1. -/
def findSeparator (s : Text) : Option Nat :=
  if s.length = 7 then some 7
  else if s.getD 4 0 = 0x2D then
    if s.getD 5 0 = 0x57 then
      if 8 < s.length ∧ s.getD 8 0 = 0x2D then
        if s.length = 9 then none
        -- either a dash at 8 is the separator or a digit at 10
        else if 10 < s.length ∧ isDigit (s.getD 10 0) then some 8
        else some 10
      else some 8
    else some 10
  else if s.getD 4 0 = 0x57 then
    let pos := 7 + ((s.drop 7).takeWhile isDigit).length
    if pos < 9 then some pos
    else if pos % 2 = 0 then some 7
    else some 8
  else some 8

/-- `weekday`; Monday is 0. -/
def weekday (date : Calendar.Date) : Nat :=
  (Calendar.ymd2ord date + 6) % 7

/-- `iso_week1_monday` -/
def week1Monday (year : Nat) : Nat :=
  let firstDay := Calendar.ymd2ord ⟨year, 1, 1⟩
  let firstWeekday := weekday ⟨year, 1, 1⟩
  firstDay - firstWeekday + (if 3 < firstWeekday then 7 else 0)

/-- `iso_to_ymd`, with `none` where the week or the day is out of range. -/
def isoToYmd (year week day : Nat) : Option Calendar.Date :=
  let firstWeekday := weekday ⟨year, 1, 1⟩
  let long := firstWeekday = 3 ∨ (firstWeekday = 2 ∧ Calendar.isLeap year = true)
  if year = 0 ∨ week = 0 ∨ 53 < week ∨ (week = 53 ∧ ¬long) ∨ day = 0 ∨ 7 < day then none
  else some (Calendar.ord2ymd (week1Monday year + (week - 1) * 7 + (day - 1)))

/-- `parse_isoformat_date`; the date takes `len` characters. -/
def parseDate (s : Text) (len : Nat) : Option Calendar.Date :=
  (parseDigits 4 0 s).bind (fun year =>
    let usesSeparator : Bool := peek year.2 = 0x2D
    let p := if usesSeparator then year.2.tail else year.2
    if peek p = 0x57 then
      (parseDigits 2 0 p.tail).bind (fun week =>
        if s.length - week.2.length < len then
          if usesSeparator ∧ peek week.2 ≠ 0x2D then none
          else
            (parseDigits 1 0 (if usesSeparator then week.2.tail else week.2)).bind (fun day =>
              isoToYmd year.1 week.1 day.1)
        else isoToYmd year.1 week.1 1)
    else
      (parseDigits 2 0 p).bind (fun month =>
        if usesSeparator ∧ peek month.2 ≠ 0x2D then none
        else
          (parseDigits 2 0 (if usesSeparator then month.2.tail else month.2)).map (fun day =>
            ⟨year.1, month.1, day.1⟩)))

/-!
# Times
-/

def Clock.set (clock : Clock) (i value : Nat) : Clock :=
  match i with
  | 0 => { clock with hour := value }
  | 1 => { clock with minute := value }
  | _ => { clock with second := value }

/--
The microseconds, with `left` characters to the end of the time. Digits behind the sixth are
passed over; the answer says whether there is more behind them.
-/
def parseFraction (clock : Clock) (p : Text) (left : Nat) : Option (Clock × Bool) :=
  let count := min left 6
  (parseDigits count 0 p).map (fun fraction =>
    ({ clock with microsecond := fraction.1 * 10 ^ (6 - count) },
      peek (fraction.2.dropWhile isDigit) ≠ 0))

/-- `parse_hh_mm_ss_ff` with `rounds` of the loop to go; `hasSeparator` is what the first found. -/
def parseClock : Nat -> Bool -> Clock -> Text -> Nat -> Option (Clock × Bool)
  | 0, _, clock, p, left => parseFraction clock p left
  | rounds + 1, hasSeparator, clock, p, left =>
      (parseDigits 2 0 p).bind (fun value =>
        let clock := clock.set (2 - rounds) value.1
        let c := peek value.2
        let hasSeparator : Bool := if rounds = 2 then c = 0x3A else hasSeparator
        if left ≤ 3 then some (clock, c ≠ 0)
        else if hasSeparator ∧ c = 0x3A then
          parseClock rounds hasSeparator clock value.2.tail (left - 3)
        else if c = 0x2E ∨ c = 0x2C then parseFraction clock value.2.tail (left - 3)
        else if ¬hasSeparator then parseClock rounds hasSeparator clock value.2 (left - 2)
        else none)

/-- `+`, `-` or `Z` -/
def startsZone (c : CodePoint) : Bool :=
  c = 0x2B || c = 0x2D || c = 0x5A

/-- The offset behind its sign; one of no seconds is that of UTC. -/
def zoneOffset (sign : CodePoint) (zone : Clock) : Int :=
  let seconds := zone.hour * 3600 + zone.minute * 60 + zone.second
  if seconds = 0 then 0
  else (if sign = 0x2D then -1 else 1) * ((seconds * 1000000 + zone.microsecond : Nat) : Int)

/-- `parse_isoformat_time` -/
def parseTime (p : Text) : Option (Clock × Option Int) :=
  (parseClock 3 false midnight p (p.takeWhile (fun c => !startsZone c)).length).bind (fun time =>
    match p.dropWhile (fun c => !startsZone c) with
    | [] => if time.2 then none else some (time.1, none)
    | sign :: rest =>
        if sign = 0x5A then
          if peek rest ≠ 0 then none else some (time.1, some 0)
        else
          (parseClock 3 false midnight rest rest.length).bind (fun zone =>
            if zone.2 then none else some (time.1, some (zoneOffset sign zone.1))))

/-!
# The reader
-/

/-- `_sanitize_isoformat_str`: a surrogate where a separator may be is taken for one. -/
def sanitize (s : Text) : Text :=
  match [7, 8, 10].find? (fun pos => isSurrogate (s.getD pos 0)) with
  | some pos => s.set pos 0x54
  | none => s

/-- The bytes of a text, as characters. -/
def units (s : Text) : Option Text :=
  (utf8Encode s).map (fun data => data.map (fun b => Fin.ofNat 0x110000 b.toNat))

/-- The bytes of a separator, by its first one. -/
def separatorLength (c : CodePoint) : Nat :=
  if c.val < 0x80 then 1
  else if 0xE0 ≤ c.val ∧ c.val < 0xF0 then 3
  else if 0xF0 ≤ c.val then 4
  else 2

instance (date : Calendar.Date) : Decidable date.IsValid :=
  decidable_of_iff
    (1 ≤ date.year ∧ (1 ≤ date.month ∧ date.month ≤ 12) ∧ 1 ≤ date.day ∧
      date.day ≤ Calendar.daysInMonth (Calendar.isLeap date.year) date.month)
    ⟨fun h => ⟨h.left, h.right.left, h.right.right⟩, fun h => ⟨h.year, h.month, h.day⟩⟩

def Clock.IsValid (clock : Clock) : Prop :=
  clock.hour < 24 ∧ clock.minute < 60 ∧ clock.second < 60 ∧ clock.microsecond < 1000000

instance (clock : Clock) : Decidable clock.IsValid :=
  inferInstanceAs (Decidable (_ ∧ _))

/-- `datetime` and `timezone` take the fields. -/
def Fields.IsValid (fields : Fields) : Prop :=
  (fields.date.IsValid ∧ fields.date.year ≤ 9999) ∧ fields.clock.IsValid ∧
    (fields.offset.getD 0).natAbs < 86400000000

instance (fields : Fields) : Decidable fields.IsValid :=
  inferInstanceAs (Decidable (_ ∧ _))

/-- `datetime.fromisoformat(s)`, with `none` where it raises `ValueError`. -/
def fromisoformat (s : Text) : Option Fields :=
  if s.length < 7 then none
  else
    (units (sanitize s)).bind (fun s =>
      (findSeparator s).bind (fun separator =>
        (parseDate s separator).bind (fun date =>
          (match s.drop separator with
            | [] => some (midnight, none)
            | c :: rest => parseTime (rest.drop (separatorLength c - 1))).bind (fun time =>
              let fields : Fields := ⟨date, time.1, time.2⟩
              if fields.IsValid then some fields else none))))

/-- `value.isoformat()` of a time that is naive or in UTC. -/
def isoformat (date : Calendar.Date) (clock : Clock) (aware : Bool) : Text :=
  padded 4 date.year ++ text "-" ++ padded 2 date.month ++ text "-" ++ padded 2 date.day ++
    text "T" ++ padded 2 clock.hour ++ text ":" ++ padded 2 clock.minute ++ text ":" ++
    padded 2 clock.second ++
    (if clock.microsecond = 0 then [] else text "." ++ padded 6 clock.microsecond) ++
    (if aware then text "+00:00" else [])

/-!
# Numbers
-/

theorem isDigit_digitChar : forall d, d < 10 -> isDigit (digitChar d) = true := by
  decide

theorem digit_digitChar : forall d, d < 10 -> (digitChar d).val - 0x30 = d := by
  decide

theorem isDigit_padded (count n : Nat) : forall c, c ∈ padded count n -> isDigit c = true := by
  induction count generalizing n with
  | zero => exact fun c hc => absurd hc List.not_mem_nil
  | succ count ih =>
      intro c hc
      rcases List.mem_append.mp hc with hc | hc
      · exact ih (n / 10) c hc
      · rw [List.mem_singleton.mp hc]
        exact isDigit_digitChar _ (Nat.mod_lt n (by decide))

theorem length_padded (count n : Nat) : (padded count n).length = count := by
  induction count generalizing n with
  | zero => rfl
  | succ count ih => rw [padded, List.length_append, ih, List.length_singleton]

theorem parseDigits_succ (count n : Nat) (p : Text) :
    parseDigits (count + 1) n p =
      (parseDigits count n p).bind (fun read => parseDigits 1 read.1 read.2) := by
  induction count generalizing n p with
  | zero => rfl
  | succ count ih =>
      cases p with
      | nil => rfl
      | cons c p =>
          rw [parseDigits, parseDigits]
          split
          · exact ih _ p
          · rfl

theorem parseDigits_padded {count n : Nat} (hn : n < 10 ^ count) (rest : Text) :
    parseDigits count 0 (padded count n ++ rest) = some (n, rest) := by
  induction count generalizing n rest with
  | zero =>
      rw [Nat.lt_one_iff.mp hn]
      rfl
  | succ count ih =>
      have hhigh : n / 10 < 10 ^ count := by
        rw [Nat.pow_succ] at hn
        omega
      have hlow : n % 10 < 10 := Nat.mod_lt n (by decide)
      rw [padded, List.append_assoc, parseDigits_succ, ih hhigh, Option.bind_some,
        List.singleton_append, parseDigits, if_pos (isDigit_digitChar _ hlow),
        digit_digitChar _ hlow]
      have hn : n / 10 * 10 + n % 10 = n := by omega
      rw [hn]
      rfl

/-!
# The date is read
-/

theorem digit_head_padded (count n : Nat) (rest : Text) :
    exists c more, padded (count + 1) n ++ rest = c :: more ∧ isDigit c = true := by
  cases hdigits : padded (count + 1) n with
  | nil =>
      have hlength := length_padded (count + 1) n
      rw [hdigits] at hlength
      cases hlength
  | cons c more =>
      refine ⟨c, more ++ rest, rfl, isDigit_padded (count + 1) n c ?_⟩
      rw [hdigits]
      exact List.mem_cons_self

theorem ne_of_isDigit {c d : CodePoint} (hc : isDigit c = true) (hd : isDigit d = false) :
    c ≠ d := by
  rintro rfl
  rw [hc] at hd
  cases hd

section Date

variable {date : Calendar.Date}

/-- The text of a date with a time behind it. -/
def dateText (date : Calendar.Date) (t : Text) : Text :=
  padded 4 date.year ++ (0x2D :: (padded 2 date.month ++ (0x2D :: (padded 2 date.day ++
    (0x54 :: t)))))

theorem length_dateText (date : Calendar.Date) (t : Text) :
    (dateText date t).length = t.length + 11 := by
  unfold dateText
  simp only [List.length_append, List.length_cons, length_padded]
  omega

theorem drop_dateText (date : Calendar.Date) (t : Text) :
    (dateText date t).drop 10 = 0x54 :: t := by
  have hsplit : dateText date t = (padded 4 date.year ++ (0x2D :: (padded 2 date.month ++
      (0x2D :: padded 2 date.day)))) ++ (0x54 :: t) := by
    unfold dateText
    simp only [List.append_assoc, List.cons_append]
  rw [hsplit]
  apply List.drop_left'
  simp only [List.length_append, List.length_cons, length_padded]

theorem findSeparator_dateText (date : Calendar.Date) (t : Text) :
    findSeparator (dateText date t) = some 10 := by
  have hlength := length_dateText date t
  rcases digit_head_padded 1 date.month (0x2D :: (padded 2 date.day ++ (0x54 :: t))) with
    ⟨c, more, hmonth, hc⟩
  have hdash : (dateText date t).getD 4 0 = 0x2D := by
    unfold dateText
    rw [List.getD_append_right _ _ _ _ (by rw [length_padded]), length_padded]
    rfl
  have hdigit : (dateText date t).getD 5 0 = c := by
    unfold dateText
    rw [List.getD_append_right _ _ _ _ (by rw [length_padded]; decide), length_padded, hmonth]
    rfl
  unfold findSeparator
  rw [if_neg (by omega), if_pos hdash, hdigit, if_neg (ne_of_isDigit hc (by decide))]

theorem parseDate_dateText (hvalid : date.IsValid) (hyear : date.year ≤ 9999) (t : Text) :
    parseDate (dateText date t) 10 = some date := by
  have hmonth := hvalid.month
  have hday : date.day < 100 := by
    have hmax : forall leap : Bool, forall month, month < 13 ->
        Calendar.daysInMonth leap month < 100 := by decide
    exact lt_of_le_of_lt hvalid.day.right (hmax _ _ (by omega))
  rcases digit_head_padded 1 date.month (0x2D :: (padded 2 date.day ++ (0x54 :: t))) with
    ⟨c, more, hdigits, hc⟩
  have hpeek : peek (padded 2 date.month ++ (0x2D :: (padded 2 date.day ++ (0x54 :: t)))) = c := by
    rw [hdigits]
    rfl
  unfold parseDate dateText
  rw [parseDigits_padded (by omega), Option.bind_some]
  dsimp only
  rw [show peek (0x2D :: _) = 0x2D from rfl, decide_eq_true rfl, if_pos rfl, List.tail_cons,
    hpeek, if_neg (ne_of_isDigit hc (by decide)), parseDigits_padded (by omega),
    Option.bind_some]
  dsimp only
  rw [show peek (0x2D :: _) = 0x2D from rfl, if_neg (fun h => h.right rfl), if_pos rfl,
    List.tail_cons, parseDigits_padded hday]
  rfl

end Date

/-!
# The time is read
-/

section Clock

variable {clock : Clock} {zone : Text}

/-- The text of a time of the day. -/
def clockText (clock : Clock) (zone : Text) : Text :=
  padded 2 clock.hour ++ (0x3A :: (padded 2 clock.minute ++ (0x3A :: (padded 2 clock.second ++
    ((if clock.microsecond = 0 then [] else 0x2E :: padded 6 clock.microsecond) ++ zone)))))

theorem parseClock_colon {value left : Nat} (hvalue : value < 100) (hleft : 3 < left)
    (rounds : Nat) {hasSeparator : Bool} (hcolon : rounds = 2 ∨ hasSeparator = true)
    (clock : Clock) (rest : Text) :
    parseClock (rounds + 1) hasSeparator clock (padded 2 value ++ (0x3A :: rest)) left =
      parseClock rounds true (clock.set (2 - rounds) value) rest (left - 3) := by
  have hfound : (if rounds = 2 then decide ((0x3A : CodePoint) = 0x3A) else hasSeparator) =
      true := by
    rcases hcolon with rfl | rfl
    · rfl
    · exact ite_self true
  rw [parseClock, parseDigits_padded hvalue, Option.bind_some]
  dsimp only
  rw [show peek (0x3A :: rest) = 0x3A from rfl, hfound, if_neg (by omega), if_pos ⟨rfl, rfl⟩]
  rfl

theorem parseFraction_padded {micro : Nat} (hmicro : micro < 1000000)
    (hzone : (peek zone).val < 0x30) :
    parseFraction clock (padded 6 micro ++ zone) 6 =
      some ({ clock with microsecond := micro }, decide (peek zone ≠ 0)) := by
  have hend : zone.dropWhile isDigit = zone := by
    cases zone with
    | nil => rfl
    | cons c rest =>
        apply List.dropWhile_cons_of_neg
        unfold isDigit
        rw [decide_eq_false (show ¬(0x30 ≤ c.val) from Nat.not_le.mpr hzone)]
        exact Bool.false_ne_true
  unfold parseFraction
  dsimp only
  rw [Nat.min_self, parseDigits_padded hmicro, Option.map_some, hend]
  simp only [Nat.sub_self, Nat.pow_zero, Nat.mul_one]

theorem parseClock_clockText (hclock : clock.IsValid) (hzone : (peek zone).val < 0x30) :
    parseClock 3 false midnight (clockText clock zone) (clockText clock []).length =
      some (clock, decide (peek zone ≠ 0)) := by
  rcases hclock with ⟨hhour, hminute, hsecond, hmicro⟩
  have hlength : (clockText clock []).length = if clock.microsecond = 0 then 8 else 15 := by
    unfold clockText
    split
    · simp only [List.length_append, List.length_cons, List.length_nil, length_padded]
    · simp only [List.length_append, List.length_cons, List.length_nil, length_padded]
  have hlong : 8 ≤ (clockText clock []).length := by
    rw [hlength]
    split <;> decide
  unfold clockText
  unfold clockText at hlength hlong
  rw [parseClock_colon (by omega) (by omega) 2 (Or.inl rfl),
    parseClock_colon (by omega) (by omega) 1 (Or.inr rfl), hlength]
  rw [parseClock]
  by_cases hwhole : clock.microsecond = 0
  · rw [if_pos hwhole, if_pos hwhole, List.nil_append, parseDigits_padded (by omega),
      Option.bind_some]
    dsimp only
    rw [if_pos (by decide)]
    have heq : ((midnight.set (2 - 2) clock.hour).set (2 - 1) clock.minute).set (2 - 0)
        clock.second = clock := by
      cases clock with
      | mk hour minute second microsecond =>
          cases hwhole
          rfl
    rw [heq]
  · rw [if_neg hwhole, if_neg hwhole, parseDigits_padded (by omega), Option.bind_some]
    dsimp only
    rw [List.cons_append, show peek (0x2E :: _) = 0x2E from rfl, if_neg (by decide),
      if_neg (fun h => absurd h.right (by decide)), if_pos (Or.inl rfl), List.tail_cons]
    rw [show 15 - 3 - 3 - 3 = 6 from rfl, parseFraction_padded hmicro hzone]
    rfl

theorem takeWhile_clockText (clock : Clock) (hzone : zone = [] ∨ zone = text "+00:00") :
    (clockText clock zone).takeWhile (fun c => !startsZone c) = clockText clock [] ∧
      (clockText clock zone).dropWhile (fun c => !startsZone c) = zone := by
  have hdigits : forall count n, forall c, c ∈ padded count n -> startsZone c = false := by
    intro count n c hc
    have hdigit := isDigit_padded count n c hc
    unfold startsZone
    rw [decide_eq_false (ne_of_isDigit hdigit (by decide)),
      decide_eq_false (ne_of_isDigit hdigit (by decide)),
      decide_eq_false (ne_of_isDigit hdigit (by decide))]
    rfl
  have hfront : forall c, c ∈ clockText clock [] -> (!startsZone c) = true := by
    intro c hc
    have hnone : startsZone c = false := by
      unfold clockText at hc
      rw [List.append_nil] at hc
      rcases List.mem_append.mp hc with hc | hc
      · exact hdigits _ _ c hc
      rcases List.mem_cons.mp hc with rfl | hc
      · decide
      rcases List.mem_append.mp hc with hc | hc
      · exact hdigits _ _ c hc
      rcases List.mem_cons.mp hc with rfl | hc
      · decide
      rcases List.mem_append.mp hc with hc | hc
      · exact hdigits _ _ c hc
      · split at hc
        · cases hc
        · rcases List.mem_cons.mp hc with rfl | hc
          · decide
          · exact hdigits _ _ c hc
    rw [hnone]
    rfl
  have hsplit : clockText clock zone = clockText clock [] ++ zone := by
    unfold clockText
    simp only [List.append_assoc, List.cons_append, List.append_nil]
  rw [hsplit, List.takeWhile_append_of_pos hfront, List.dropWhile_append_of_pos hfront]
  rcases hzone with rfl | rfl
  · exact ⟨List.append_nil _, rfl⟩
  · exact ⟨List.append_nil _, rfl⟩

theorem parseTime_clockText (hclock : clock.IsValid) (aware : Bool) :
    parseTime (clockText clock (if aware then text "+00:00" else [])) =
      some (clock, if aware then some 0 else none) := by
  cases aware with
  | false =>
      have hread : parseClock 3 false midnight (clockText clock []) (clockText clock []).length =
          some (clock, decide (peek [] ≠ 0)) := parseClock_clockText hclock (by decide)
      rcases takeWhile_clockText clock (Or.inl rfl) with ⟨hfront, hback⟩
      unfold parseTime
      rw [if_neg Bool.false_ne_true, if_neg Bool.false_ne_true, hfront, hback, hread]
      rfl
  | true =>
      have hread : parseClock 3 false midnight (clockText clock (text "+00:00"))
          (clockText clock []).length = some (clock, decide (peek (text "+00:00") ≠ 0)) :=
        parseClock_clockText hclock (by decide)
      rcases takeWhile_clockText clock (Or.inr rfl) with ⟨hfront, hback⟩
      have hutc : parseClock 3 false midnight (text "00:00") 5 = some (midnight, false) := by
        decide
      have hsign : text "+00:00" = 0x2B :: text "00:00" := rfl
      unfold parseTime
      rw [if_pos rfl, if_pos rfl, hfront, hback, hread, Option.bind_some, hsign]
      dsimp only
      rw [if_neg (by decide), show (text "00:00").length = 5 from rfl, hutc, Option.bind_some,
        if_neg Bool.false_ne_true]
      have hzero : zoneOffset 0x2B midnight = 0 := by decide
      rw [hzero]

end Clock

/-!
# The text is read back
-/

theorem isoformat_eq (date : Calendar.Date) (clock : Clock) (aware : Bool) :
    isoformat date clock aware =
      dateText date (clockText clock (if aware then text "+00:00" else [])) := by
  have hdash : text "-" = [0x2D] := rfl
  have hmark : text "T" = [0x54] := rfl
  have hcolon : text ":" = [0x3A] := rfl
  have hpoint : text "." = [0x2E] := rfl
  unfold isoformat dateText clockText
  simp only [hdash, hmark, hcolon, hpoint, List.append_assoc, List.cons_append,
    List.nil_append]

theorem forall_mem_isoformat {P : CodePoint -> Prop} (hdigit : forall c, isDigit c = true -> P c)
    (hmark : forall c, c ∈ text "-T:.+" -> P c) (date : Calendar.Date) (clock : Clock)
    (aware : Bool) : forall c, c ∈ isoformat date clock aware -> P c := by
  have hdigits : forall count n, forall c, c ∈ padded count n -> P c :=
    fun count n c hc => hdigit c (isDigit_padded count n c hc)
  have hliteral : forall {s : Text}, s.all (fun c => (text "-T:.+").contains c) = true ->
      forall c, c ∈ s -> P c :=
    fun hs c hc => hmark c (List.contains_iff_mem.mp (List.all_eq_true.mp hs c hc))
  have hnone : forall c, c ∈ ([] : Text) -> P c := fun c hc => absurd hc List.not_mem_nil
  have hfraction : forall c, c ∈ (if clock.microsecond = 0 then []
      else text "." ++ padded 6 clock.microsecond) -> P c := by
    split
    · exact hnone
    · exact List.forall_mem_append.mpr ⟨hliteral (by decide), hdigits _ _⟩
  have hzone : forall c, c ∈ (if aware then text "+00:00" else []) -> P c := by
    have hzero : P 0x30 := hdigit 0x30 (by decide)
    have hplus : P 0x2B := hmark 0x2B (by decide)
    have hcolon : P 0x3A := hmark 0x3A (by decide)
    split
    · rw [show text "+00:00" = [0x2B, 0x30, 0x30, 0x3A, 0x30, 0x30] from rfl]
      simp only [List.forall_mem_cons]
      exact ⟨hplus, hzero, hzero, hcolon, hzero, hzero, hnone⟩
    · exact hnone
  unfold isoformat
  simp only [List.forall_mem_append]
  exact ⟨⟨⟨⟨⟨⟨⟨⟨⟨⟨⟨⟨hdigits _ _, hliteral (by decide)⟩, hdigits _ _⟩, hliteral (by decide)⟩,
    hdigits _ _⟩, hliteral (by decide)⟩, hdigits _ _⟩, hliteral (by decide)⟩, hdigits _ _⟩,
    hliteral (by decide)⟩, hdigits _ _⟩, hfraction⟩, hzone⟩

theorem isoformat_ascii (date : Calendar.Date) (clock : Clock) (aware : Bool) :
    forall c, c ∈ isoformat date clock aware -> c.val < 0x80 := by
  apply forall_mem_isoformat
  · intro c hc
    unfold isDigit at hc
    rw [Bool.and_eq_true, decide_eq_true_eq, decide_eq_true_eq] at hc
    exact lt_of_le_of_lt hc.right (by decide)
  · exact ascii_of_all (by decide)

theorem not_isSurrogate_of_ascii {c : CodePoint} (h : c.val < 0x80) : isSurrogate c = false := by
  unfold isSurrogate
  rw [decide_eq_false (by omega), Bool.false_and]

theorem sanitize_ascii {s : Text} (h : forall c, c ∈ s -> c.val < 0x80) : sanitize s = s := by
  have hnone : [7, 8, 10].find? (fun pos => isSurrogate (s.getD pos 0)) = none := by
    apply List.find?_eq_none.mpr
    intro pos _
    have hchar : (s.getD pos 0).val < 0x80 := by
      by_cases hpos : pos < s.length
      · rw [List.getD_eq_getElem _ _ hpos]
        exact h _ (List.getElem_mem hpos)
      · rw [List.getD_eq_default _ _ (Nat.not_lt.mp hpos)]
        decide
    rw [not_isSurrogate_of_ascii hchar]
    exact Bool.false_ne_true
  unfold sanitize
  rw [hnone]

theorem units_ascii {s : Text} (h : forall c, c ∈ s -> c.val < 0x80) : units s = some s := by
  unfold units
  rw [utf8Encode_ascii h, Option.map_some, map_toNat_map_ofNat h]

/-- `datetime.fromisoformat(value.isoformat()) == value` -/
theorem fromisoformat_isoformat {date : Calendar.Date} {clock : Clock} (hdate : date.IsValid)
    (hyear : date.year ≤ 9999) (hclock : clock.IsValid) (aware : Bool) :
    fromisoformat (isoformat date clock aware) =
      some ⟨date, clock, if aware then some 0 else none⟩ := by
  have hascii := isoformat_ascii date clock aware
  have hvalid : (Fields.mk date clock (if aware then some 0 else none)).IsValid := by
    have hoffset : (if aware then some (0 : Int) else none).getD 0 = 0 := by
      cases aware with
      | false => rfl
      | true => rfl
    refine ⟨⟨hdate, hyear⟩, hclock, ?_⟩
    show ((if aware then some (0 : Int) else none).getD 0).natAbs < 86400000000
    rw [hoffset]
    decide
  unfold fromisoformat
  rw [sanitize_ascii hascii, units_ascii hascii, Option.bind_some]
  rw [isoformat_eq, if_neg (by rw [length_dateText]; omega), findSeparator_dateText,
    Option.bind_some, parseDate_dateText hdate hyear, Option.bind_some, drop_dateText]
  dsimp only
  rw [show (0x54 : CodePoint) = 0x54 from rfl, show separatorLength 0x54 - 1 = 0 from rfl,
    List.drop_zero, parseTime_clockText hclock, Option.bind_some]
  exact if_pos hvalid

end IsoFormat
end Python
end ConversationService
