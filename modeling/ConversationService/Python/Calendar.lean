import Mathlib.Data.Nat.Basic

/-!
# The Gregorian calendar (`datetime.date`)

Days are counted from 0001-01-01, which is day 1. A day has one date, and the number of the
day is that of its date.
-/

namespace ConversationService
namespace Python
namespace Calendar

structure Date where
  year : Nat
  month : Nat
  day : Nat
deriving DecidableEq, Repr

def isLeap (year : Nat) : Bool :=
  year % 4 = 0 && (year % 100 ≠ 0 || year % 400 = 0)

/-- `_days_before_month` -/
def daysBeforeMonth (leap : Bool) (month : Nat) : Nat :=
  [0, 0, 31, 59, 90, 120, 151, 181, 212, 243, 273, 304, 334].getD month 0 +
    (if leap && 2 < month then 1 else 0)

/-- `_days_in_month` -/
def daysInMonth (leap : Bool) (month : Nat) : Nat :=
  if leap && month = 2 then 29
  else [0, 31, 28, 31, 30, 31, 30, 31, 31, 30, 31, 30, 31].getD month 0

/-- `_days_before_year` -/
def daysBeforeYear (year : Nat) : Nat :=
  (year - 1) * 365 + (year - 1) / 4 - (year - 1) / 100 + (year - 1) / 400

/-- `_ymd2ord` -/
def ymd2ord (date : Date) : Nat :=
  daysBeforeYear date.year + daysBeforeMonth (isLeap date.year) date.month + date.day

/-- The year of a day that is `n` days after 0001-01-01, and the days before it in the year. -/
def yearDay (n : Nat) : Nat × Nat :=
  let n400 := n / 146097
  let n := n % 146097
  let n100 := n / 36524
  let n := n % 36524
  let n4 := n / 1461
  let n := n % 1461
  let n1 := n / 365
  let year := n400 * 400 + n100 * 100 + n4 * 4 + n1 + 1
  -- the last day of a leap year is counted into the next one
  if n1 = 4 ∨ n100 = 4 then (year - 1, 365) else (year, n % 365)

/-- The month of a day, and the day in it, by the days before it in the year. -/
def monthDay (leap : Bool) (n : Nat) : Nat × Nat :=
  let month := (n + 50) / 32
  if n < daysBeforeMonth leap month then
    (month - 1, n - daysBeforeMonth leap (month - 1) + 1)
  else (month, n - daysBeforeMonth leap month + 1)

/-- `_ord2ymd` -/
def ord2ymd (n : Nat) : Date :=
  let year := yearDay (n - 1)
  let month := monthDay (isLeap year.1) year.2
  ⟨year.1, month.1, month.2⟩

/-!
# A day and its date
-/

def daysInYear (leap : Bool) : Nat :=
  if leap then 366 else 365

theorem isLeap_iff (year : Nat) : isLeap year = true <->
    year % 4 = 0 ∧ (year % 100 ≠ 0 ∨ year % 400 = 0) := by
  unfold isLeap
  rw [Bool.and_eq_true, Bool.or_eq_true, decide_eq_true_eq, decide_eq_true_eq, decide_eq_true_eq]

theorem daysBeforeYear_eq {a b c d : Nat} (hb : b ≤ 3) (hc : c ≤ 24) (hd : d ≤ 3) :
    daysBeforeYear (a * 400 + b * 100 + c * 4 + d + 1) =
      a * 146097 + b * 36524 + c * 1461 + d * 365 := by
  have hfour : (a * 400 + b * 100 + c * 4 + d) / 4 = a * 100 + b * 25 + c := by omega
  have hcentury : (a * 400 + b * 100 + c * 4 + d) / 100 = a * 4 + b := by omega
  have hlong : (a * 400 + b * 100 + c * 4 + d) / 400 = a := by omega
  unfold daysBeforeYear
  rw [Nat.add_sub_cancel, hfour, hcentury, hlong]
  omega

theorem isLeap_eq {a b c d : Nat} (hb : b ≤ 3) (hc : c ≤ 24) (hd : d ≤ 3) :
    isLeap (a * 400 + b * 100 + c * 4 + d + 1) = true <-> d = 3 ∧ (c ≠ 24 ∨ b = 3) := by
  rw [isLeap_iff]
  omega

theorem yearDay_spec (n : Nat) :
    0 < (yearDay n).1 ∧ (yearDay n).2 < daysInYear (isLeap (yearDay n).1) ∧
      daysBeforeYear (yearDay n).1 + (yearDay n).2 = n := by
  unfold yearDay
  dsimp only
  have hn := Nat.div_add_mod n 146097
  have hlong := Nat.mod_lt n (show 0 < 146097 by decide)
  generalize n / 146097 = a at hn ⊢
  generalize n % 146097 = k at hn hlong ⊢
  have hk := Nat.div_add_mod k 36524
  have hcentury := Nat.mod_lt k (show 0 < 36524 by decide)
  generalize k / 36524 = b at hk ⊢
  generalize k % 36524 = l at hk hcentury ⊢
  have hl := Nat.div_add_mod l 1461
  have hfour := Nat.mod_lt l (show 0 < 1461 by decide)
  generalize l / 1461 = c at hl ⊢
  generalize l % 1461 = m at hl hfour ⊢
  have hm := Nat.div_add_mod m 365
  have hday := Nat.mod_lt m (show 0 < 365 by decide)
  generalize m / 365 = d at hm ⊢
  generalize m % 365 = r at hm hday ⊢
  have hc : c ≤ 24 := by omega
  split
  · rename_i hlast
    -- the year before: its last day is the one that was counted too far
    have hyear : a * 400 + b * 100 + c * 4 + d + 1 - 1 =
        a * 400 + (if b = 4 then 3 else b) * 100 + (if b = 4 then 24 else c) * 4 + 3 + 1 := by
      split
      · omega
      · omega
    have hb : (if b = 4 then 3 else b) ≤ 3 := by
      split
      · omega
      · omega
    have hc' : (if b = 4 then 24 else c) ≤ 24 := by
      split
      · omega
      · omega
    have hleap : isLeap (a * 400 + (if b = 4 then 3 else b) * 100 +
        (if b = 4 then 24 else c) * 4 + 3 + 1) = true := by
      rw [isLeap_eq hb hc' (Nat.le_refl 3)]
      split
      · omega
      · omega
    dsimp only
    rw [hyear, hleap, daysBeforeYear_eq hb hc' (Nat.le_refl 3)]
    refine ⟨by omega, by decide, ?_⟩
    split
    · omega
    · omega
  · rename_i hrest
    have hb : b ≤ 3 := by omega
    have hd : d ≤ 3 := by omega
    dsimp only
    rw [daysBeforeYear_eq hb hc hd]
    refine ⟨by omega, ?_, by omega⟩
    unfold daysInYear
    split
    · omega
    · omega

theorem monthDay_spec (leap : Bool) (n : Nat) (h : n < daysInYear leap) :
    1 ≤ (monthDay leap n).1 ∧ (monthDay leap n).1 ≤ 12 ∧ 1 ≤ (monthDay leap n).2 ∧
      (monthDay leap n).2 ≤ daysInMonth leap (monthDay leap n).1 ∧
      daysBeforeMonth leap (monthDay leap n).1 + (monthDay leap n).2 = n + 1 := by
  have hall : forall leap : Bool, forall n, n < daysInYear leap ->
      1 ≤ (monthDay leap n).1 ∧ (monthDay leap n).1 ≤ 12 ∧ 1 ≤ (monthDay leap n).2 ∧
        (monthDay leap n).2 ≤ daysInMonth leap (monthDay leap n).1 ∧
        daysBeforeMonth leap (monthDay leap n).1 + (monthDay leap n).2 = n + 1 := by
    decide +kernel
  exact hall leap n h

/-- A date that there is. -/
structure Date.IsValid (date : Date) : Prop where
  year : 1 ≤ date.year
  month : 1 ≤ date.month ∧ date.month ≤ 12
  day : 1 ≤ date.day ∧ date.day ≤ daysInMonth (isLeap date.year) date.month

theorem isValid_ord2ymd (n : Nat) : (ord2ymd n).IsValid := by
  rcases yearDay_spec (n - 1) with ⟨hyear, hday, _⟩
  rcases monthDay_spec _ _ hday with ⟨hlow, hhigh, hfirst, hlast, _⟩
  exact ⟨hyear, ⟨hlow, hhigh⟩, ⟨hfirst, hlast⟩⟩

/-- The number of a day is that of its date. -/
theorem ymd2ord_ord2ymd {n : Nat} (h : 1 ≤ n) : ymd2ord (ord2ymd n) = n := by
  rcases yearDay_spec (n - 1) with ⟨_, hday, hyear⟩
  rcases monthDay_spec _ _ hday with ⟨_, _, _, _, hmonth⟩
  unfold ymd2ord ord2ymd
  dsimp only
  rw [Nat.add_assoc, hmonth]
  omega

theorem year_ord2ymd_le {n : Nat} (h : n ≤ 3652059) : (ord2ymd n).year ≤ 9999 := by
  rcases yearDay_spec (n - 1) with ⟨_, _, hyear⟩
  unfold daysBeforeYear at hyear
  show (yearDay (n - 1)).1 ≤ 9999
  omega

end Calendar
end Python
end ConversationService
