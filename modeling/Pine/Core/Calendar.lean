import Pine.Core.Text
import Pine.Core.TextOrder
import Mathlib.Order.Basic

/-!
# Calendar dates

Dates of the proleptic Gregorian calendar from year 1 to 9999, their fixed-width
text, and every spelling that `date.fromisoformat` accepts. The text compares as
the calendar does, so a text column of normalized dates can be ordered.
-/

namespace Pine

def isLeap (year : Nat) : Bool := year % 4 == 0 && (year % 100 != 0 || year % 400 == 0)

def daysInMonth (year month : Nat) : Nat :=
  if month = 2 then if isLeap year then 29 else 28
  else if month = 4 ∨ month = 6 ∨ month = 9 ∨ month = 11 then 30
  else 31

/-- The numbers name a day of the calendar. -/
def IsDate (year month day : Nat) : Prop :=
  (1 ≤ year ∧ year ≤ 9999) ∧ (1 ≤ month ∧ month ≤ 12) ∧ 1 ≤ day ∧ day ≤ daysInMonth year month

instance (year month day : Nat) : Decidable (IsDate year month day) :=
  inferInstanceAs (Decidable (_ ∧ _))

/-- A calendar day. -/
@[ext]
structure Date where
  year : Nat
  month : Nat
  day : Nat
  valid : IsDate year month day
  deriving DecidableEq

namespace Date

/-- `date(year, month, day)`; `none` is a `ValueError`. -/
def ofNumbers (year month day : Nat) : Option Date :=
  if h : IsDate year month day then some ⟨year, month, day, h⟩ else none

theorem daysInMonth_le (year month : Nat) : daysInMonth year month ≤ 31 := by
  unfold daysInMonth
  split_ifs <;> omega

theorem month_lt (d : Date) : d.month < 10 ^ 2 := by
  have h := d.valid.2.1.2
  omega

theorem day_lt (d : Date) : d.day < 10 ^ 2 := by
  have h := d.valid.2.2.2
  have hmax := daysInMonth_le d.year d.month
  omega

theorem year_lt (d : Date) : d.year < 10 ^ 4 := by
  have h := d.valid.1.2
  omega

/-! ## Calendar order -/

/-- Year, month and day as one number. -/
def key (d : Date) : Nat := d.year * 10 ^ 4 + d.month * 10 ^ 2 + d.day

theorem key_injective : Function.Injective key := by
  intro a b h
  have ha := a.month_lt
  have hb := b.month_lt
  have ha' := a.day_lt
  have hb' := b.day_lt
  unfold key at h
  ext <;> omega

/-- Days are ordered by year, then month, then day. -/
instance : LinearOrder Date := LinearOrder.lift' key key_injective

theorem le_iff_key {a b : Date} : a ≤ b ↔ a.key ≤ b.key := Iff.rfl

theorem lt_iff_key {a b : Date} : a < b ↔ a.key < b.key := Iff.rfl

/-! ## Fixed-width text -/

/-- `date.isoformat()` -/
def isoformat (d : Date) : Text :=
  padDigits 4 d.year ++ '-' :: (padDigits 2 d.month ++ '-' :: padDigits 2 d.day)

/-- The text of dates compares as the calendar does. -/
theorem isoformat_le_iff (a b : Date) : textLe a.isoformat b.isoformat = true ↔ a ≤ b := by
  have hday := textLe_padDigits (s := []) (t := []) a.day_lt b.day_lt
  simp only [List.append_nil] at hday
  rw [isoformat, isoformat, textLe_padDigits a.year_lt b.year_lt, textLe_cons_self,
    textLe_padDigits a.month_lt b.month_lt, textLe_cons_self, hday, le_iff_key, key, key]
  have ha := a.month_lt
  have hb := b.month_lt
  have ha' := a.day_lt
  have hb' := b.day_lt
  simp only [textLe, and_true]
  omega

theorem isoformat_injective : Function.Injective isoformat := by
  intro a b h
  apply le_antisymm
  · rw [← isoformat_le_iff, h]
    exact textLe_self _
  · rw [← isoformat_le_iff, h]
    exact textLe_self _

/-! ## Day numbers -/

/-- Days before January 1 of a year. -/
def daysBeforeYear (year : Nat) : Nat :=
  (year - 1) * 365 + (year - 1) / 4 - (year - 1) / 100 + (year - 1) / 400

/-- Days of a year before the first day of a month. -/
def daysBeforeMonth (year month : Nat) : Nat :=
  ((List.range' 1 (month - 1)).map (daysInMonth year)).sum

/-- The day number of a date; January 1 of year 1 is day 1. -/
def ymdToOrd (year month day : Nat) : Nat :=
  daysBeforeYear year + daysBeforeMonth year month + day

/-- The day of the week of a day number, Monday as 0. -/
def weekdayOfOrd (ordinal : Nat) : Nat := (ordinal + 6) % 7

/-- Year, month and day of a day number. -/
def ordToYmd (ordinal : Nat) : Nat × Nat × Nat :=
  let n := ordinal - 1
  let n400 := n / 146097
  let n := n % 146097
  let n100 := n / 36524
  let n := n % 36524
  let n4 := n / 1461
  let n := n % 1461
  let n1 := n / 365
  let n := n % 365
  let year := n400 * 400 + 1 + n100 * 100 + n4 * 4 + n1
  if n1 = 4 ∨ n100 = 4 then (year - 1, 12, 31)
  else
    let month := (n + 50) / 32
    if daysBeforeMonth year month > n then
      (year, month - 1, n - daysBeforeMonth year (month - 1) + 1)
    else (year, month, n - daysBeforeMonth year month + 1)

/-- The day number of the Monday of the first ISO week of a year. -/
def isoWeek1Monday (year : Nat) : Int :=
  let first := ymdToOrd year 1 1
  let monday : Int := first - weekdayOfOrd first
  if weekdayOfOrd first > 3 then monday + 7 else monday

/-- A year has a 53rd ISO week when it begins on a Thursday, or on a Wednesday in a leap year. -/
def hasWeek53 (year : Nat) : Bool :=
  let first := weekdayOfOrd (ymdToOrd year 1 1)
  first == 3 || (first == 2 && isLeap year)

/-- The date of an ISO year, week and weekday. -/
def ofIsoWeek (year week day : Nat) : Option Date :=
  if 1 ≤ year ∧ 1 ≤ week ∧ (week ≤ 52 ∨ week = 53 ∧ hasWeek53 year = true) ∧ 1 ≤ day ∧ day ≤ 7 then
    let (y, m, d) := ordToYmd (isoWeek1Monday year + (week - 1) * 7 + day - 1).toNat
    ofNumbers y m d
  else none

/-! ## Reading -/

/-- Exactly `n` digits at the head of a text. -/
def takeNumber (n : Nat) (s : Text) : Option (Nat × Text) :=
  if (s.take n).length = n ∧ (s.take n).all Char.isDigit = true then
    some (Nat.ofDigitChars 10 (s.take n) 0, s.drop n)
  else none

/-- The date part of an ISO text: `YYYY-MM-DD`, `YYYYMMDD`, or a week with an optional
weekday, after which nothing more is read. -/
def parseIsoformatDate (s : Text) : Option Date := do
  let (year, s) ← takeNumber 4 s
  let separated := (stripPrefix ['-'] s).isSome
  let s := (stripPrefix ['-'] s).getD s
  match stripPrefix ['W'] s with
  | some s =>
    let (week, s) ← takeNumber 2 s
    if s = [] then ofIsoWeek year week 1
    else
      let s ← if separated then stripPrefix ['-'] s else some s
      let (day, _) ← takeNumber 1 s
      ofIsoWeek year week day
  | none =>
    let (month, s) ← takeNumber 2 s
    let s ← if separated then stripPrefix ['-'] s else some s
    let (day, s) ← takeNumber 2 s
    if s = [] then ofNumbers year month day else none

/-- `date.fromisoformat`; `none` is a `ValueError`. -/
def fromisoformat (s : Text) : Option Date :=
  if utf8Length s = 7 ∨ utf8Length s = 8 ∨ utf8Length s = 10 then parseIsoformatDate s else none

/-- A padded field is read back as its number. -/
theorem takeNumber_padDigits {w n : Nat} (s : Text) (h : n < 10 ^ w) :
    takeNumber w (padDigits w n ++ s) = some (n, s) := by
  have htake : (padDigits w n ++ s).take w = padDigits w n :=
    List.take_left' (length_padDigits w n)
  have hdrop : (padDigits w n ++ s).drop w = s := List.drop_left' (length_padDigits w n)
  have hall : (padDigits w n).all Char.isDigit = true :=
    List.all_eq_true.mpr (padDigits_isDigit w n)
  rw [takeNumber, htake, hdrop, if_pos ⟨length_padDigits w n, hall⟩, ofDigitChars_padDigits_of_lt h]

theorem ofNumbers_self (d : Date) : ofNumbers d.year d.month d.day = some d := by
  rw [ofNumbers, dif_pos d.valid]

theorem not_week_mark {c : Char} (h : c.isDigit = true) : c ≠ 'W' := by
  rintro rfl
  exact absurd h (by decide)

/-- A padded field of positive width begins with a digit, not with the mark of a week. -/
theorem stripPrefix_week (n : Nat) (s : Text) : stripPrefix ['W'] (padDigits 2 n ++ s) = none := by
  cases h : padDigits 2 n with
  | nil => exact absurd (congrArg List.length h) (by simp)
  | cons c t =>
    have hc := not_week_mark (padDigits_isDigit 2 n c (by simp [h]))
    simp [stripPrefix, Ne.symm hc]

theorem parseIsoformatDate_isoformat (d : Date) : parseIsoformatDate d.isoformat = some d := by
  have hdash : ∀ s : Text, stripPrefix ['-'] ('-' :: s) = some s := fun s =>
    stripPrefix_append ['-'] s
  have hday := takeNumber_padDigits [] d.day_lt
  simp only [List.append_nil] at hday
  simp only [parseIsoformatDate, isoformat, takeNumber_padDigits _ d.year_lt, Option.bind_eq_bind,
    Option.bind_some, hdash, Option.isSome_some, Option.getD_some, if_true, stripPrefix_week,
    takeNumber_padDigits _ d.month_lt, hday, ofNumbers_self]

theorem utf8Length_digits {s : Text} (h : ∀ c ∈ s, c.isDigit = true) : utf8Length s = s.length := by
  have hsize : ∀ c ∈ s, c.utf8Size = 1 := by
    intro c hc
    have hd := h c hc
    simp only [Char.isDigit, Bool.and_eq_true, decide_eq_true_eq] at hd
    have hval : c.val ≤ 57 := hd.2
    have hascii : (57 : UInt32) ≤ 127 := by decide
    exact Char.utf8Size_eq_one_iff.mpr (UInt32.le_trans hval hascii)
  rw [utf8Length, List.map_congr_left hsize]
  simp

theorem utf8Length_isoformat (d : Date) : utf8Length d.isoformat = 10 := by
  have hlen : ∀ w n, utf8Length (padDigits w n) = w := fun w n => by
    rw [utf8Length_digits (padDigits_isDigit w n), length_padDigits]
  have happ : ∀ s t : Text, utf8Length (s ++ t) = utf8Length s + utf8Length t := fun s t => by
    simp [utf8Length]
  have hdash : ∀ s : Text, utf8Length ('-' :: s) = 1 + utf8Length s := fun s => by
    simp only [utf8Length, List.map_cons, List.sum_cons]
    rfl
  simp only [isoformat, happ, hlen, hdash]

/-- Reading inverts writing. -/
theorem fromisoformat_isoformat (d : Date) : fromisoformat d.isoformat = some d := by
  rw [fromisoformat, if_pos (by simp [utf8Length_isoformat]), parseIsoformatDate_isoformat]

end Date

end Pine
