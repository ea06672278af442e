import Pine.Core.DateTime

/-!
# Day numbers and instants

The day number of a date grows with the date, and every number from 1 to that of the
last day is the number of exactly one date. So the text of a time in UTC compares as
its instant does.
-/

namespace Pine

namespace Date

/-! ## Months -/

/-- The months of two years with one leap status are equally long. -/
theorem daysInMonth_congr {year year' : Nat} (h : isLeap year = isLeap year') (month : Nat) :
    daysInMonth year month = daysInMonth year' month := by
  simp only [daysInMonth, h]

theorem daysBeforeMonth_congr {year year' : Nat} (h : isLeap year = isLeap year') (month : Nat) :
    daysBeforeMonth year month = daysBeforeMonth year' month := by
  simp only [daysBeforeMonth, funext (daysInMonth_congr h)]

/-- A month begins where the one before it ends. -/
theorem daysBeforeMonth_succ (year : Nat) {month : Nat} (h : 1 ≤ month) :
    daysBeforeMonth year (month + 1) = daysBeforeMonth year month + daysInMonth year month := by
  obtain ⟨m, rfl⟩ : ∃ m, month = m + 1 := ⟨month - 1, by omega⟩
  simp only [daysBeforeMonth, Nat.add_sub_cancel]
  rw [List.range'_concat, List.map_append, List.sum_append]
  simp [Nat.add_comm 1 m]

/-- A later month begins after the days of an earlier one. -/
theorem daysBeforeMonth_mono (year : Nat) {month month' : Nat} (h : 1 ≤ month)
    (hlt : month < month') :
    daysBeforeMonth year month + daysInMonth year month ≤ daysBeforeMonth year month' := by
  induction month' with
  | zero => omega
  | succ m ih =>
    rcases Nat.lt_or_ge month m with hbefore | hlast
    · have hm := ih hbefore
      rw [daysBeforeMonth_succ year (by omega)]
      omega
    · obtain rfl : month = m := by omega
      rw [daysBeforeMonth_succ year h]

/-- The year after is 365 or 366 days later. -/
theorem daysBeforeYear_succ {year : Nat} (h : 1 ≤ year) :
    daysBeforeYear (year + 1) = daysBeforeYear year + if isLeap year then 366 else 365 := by
  obtain ⟨y, rfl⟩ : ∃ y, year = y + 1 := ⟨year - 1, by omega⟩
  have hle : y / 100 ≤ y / 4 := by omega
  have hcentury : (y + 1) % 100 = 0 → (y + 1) % 4 = 0 := by omega
  have hcycle : (y + 1) % 400 = 0 → (y + 1) % 100 = 0 := by omega
  have h4 : (y + 1) / 4 = y / 4 + if (y + 1) % 4 = 0 then 1 else 0 := by
    split <;> omega
  have h100 : (y + 1) / 100 = y / 100 + if (y + 1) % 100 = 0 then 1 else 0 := by
    split <;> omega
  have h400 : (y + 1) / 400 = y / 400 + if (y + 1) % 400 = 0 then 1 else 0 := by
    split <;> omega
  simp only [daysBeforeYear, isLeap, Nat.add_sub_cancel]
  rw [h4, h100, h400]
  generalize y / 4 = q4, y / 100 = q100, y / 400 = q400 at hle ⊢
  by_cases hy4 : (y + 1) % 4 = 0
  · by_cases hy100 : (y + 1) % 100 = 0
    · by_cases hy400 : (y + 1) % 400 = 0 <;> simp [hy4, hy100, hy400] <;> omega
    · have hy400 : ¬ (y + 1) % 400 = 0 := fun hmod => hy100 (hcycle hmod)
      simp [hy4, hy100, hy400]
      omega
  · have hy100 : ¬ (y + 1) % 100 = 0 := fun hmod => hy4 (hcentury hmod)
    have hy400 : ¬ (y + 1) % 400 = 0 := fun hmod => hy100 (hcycle hmod)
    simp [hy4, hy100, hy400]
    omega

/-- The months of a year fill it. -/
theorem daysInYear (year : Nat) :
    daysBeforeMonth year 13 = if isLeap year then 366 else 365 := by
  cases hleap : isLeap year with
  | true => exact (daysBeforeMonth_congr (hleap.trans (by decide : true = isLeap 2024)) 13).trans rfl
  | false => exact (daysBeforeMonth_congr (hleap.trans (by decide : false = isLeap 2023)) 13).trans rfl

/-- A day of a year comes before the next year. -/
theorem day_lt_next_year {year month day : Nat} (h : IsDate year month day) :
    daysBeforeMonth year month + day ≤ if isLeap year then 366 else 365 := by
  obtain ⟨-, ⟨hmonth, hlast⟩, -, hday⟩ := h
  have hnext : daysBeforeMonth year month + daysInMonth year month ≤ daysBeforeMonth year 13 :=
    daysBeforeMonth_mono year hmonth (by omega)
  rw [← daysInYear year]
  omega

/-- A later year begins after the days of an earlier one. -/
theorem daysBeforeYear_mono {year year' : Nat} (h : 1 ≤ year) (hlt : year < year') :
    (daysBeforeYear year + if isLeap year then 366 else 365) ≤ daysBeforeYear year' := by
  induction year' with
  | zero => omega
  | succ y ih =>
    rcases Nat.lt_or_ge year y with hbefore | hlast
    · have hy := ih hbefore
      rw [daysBeforeYear_succ (by omega)]
      omega
    · obtain rfl : year = y := by omega
      rw [daysBeforeYear_succ h]

/-! ## The order of day numbers -/

/-- The day number of a date. -/
def ordinal (d : Date) : Nat := ymdToOrd d.year d.month d.day

theorem ordinal_lt_of_lt {a b : Date} (h : a < b) : a.ordinal < b.ordinal := by
  have hkeys := lt_iff_key.mp h
  have ha := a.month_lt
  have hb := b.month_lt
  have ha' := a.day_lt
  have hb' := b.day_lt
  have hspan := day_lt_next_year a.valid
  have hlater : 1 ≤ b.day := b.valid.2.2.1
  simp only [key] at hkeys
  simp only [ordinal, ymdToOrd]
  rcases Nat.lt_trichotomy a.year b.year with hyear | hyear | hyear
  · have hyears := daysBeforeYear_mono a.valid.1.1 hyear
    omega
  · rcases Nat.lt_trichotomy a.month b.month with hmonth | hmonth | hmonth
    · have hmonths := daysBeforeMonth_mono a.year a.valid.2.1.1 hmonth
      have hday := a.valid.2.2.2
      rw [← hyear]
      omega
    · rw [← hyear, ← hmonth]
      omega
    · omega
  · omega

/-- Day numbers are ordered as dates are. -/
theorem ordinal_lt_iff {a b : Date} : a.ordinal < b.ordinal ↔ a < b := by
  refine ⟨fun h => ?_, ordinal_lt_of_lt⟩
  by_contra hnot
  rcases (not_lt.mp hnot).eq_or_lt with rfl | hlt
  · exact lt_irrefl _ h
  · exact lt_asymm h (ordinal_lt_of_lt hlt)

/-! ## The date of a day number -/

/-- The part of `ordToYmd` within a year. -/
def ofYearDay (year n : Nat) : Nat × Nat × Nat :=
  let month := (n + 50) / 32
  if daysBeforeMonth year month > n then
    (year, month - 1, n - daysBeforeMonth year (month - 1) + 1)
  else (year, month, n - daysBeforeMonth year month + 1)

/-- The month and day that `ordToYmd` finds for a day of a year are right. -/
def RightYearDay (year n : Nat) : Prop :=
  (ofYearDay year n).1 = year ∧
    (1 ≤ (ofYearDay year n).2.1 ∧ (ofYearDay year n).2.1 ≤ 12) ∧
    (1 ≤ (ofYearDay year n).2.2 ∧
      (ofYearDay year n).2.2 ≤ daysInMonth year (ofYearDay year n).2.1) ∧
    daysBeforeMonth year (ofYearDay year n).2.1 + (ofYearDay year n).2.2 = n + 1

instance (year n : Nat) : Decidable (RightYearDay year n) := inferInstanceAs (Decidable (_ ∧ _))

theorem ofYearDay_congr {year year' : Nat} (h : isLeap year = isLeap year') (n : Nat) :
    ofYearDay year n = (year, (ofYearDay year' n).2) := by
  simp only [ofYearDay, funext (daysBeforeMonth_congr h)]
  split <;> rfl

theorem RightYearDay.congr {year year' n : Nat} (h : isLeap year = isLeap year')
    (hright : RightYearDay year' n) : RightYearDay year n := by
  obtain ⟨-, hmonth, hday, hsum⟩ := hright
  rw [RightYearDay, ofYearDay_congr h]
  refine ⟨rfl, hmonth, ?_, ?_⟩
  · rw [daysInMonth_congr h]
    exact hday
  · rw [daysBeforeMonth_congr h]
    exact hsum

theorem right_common_year : ∀ n < 365, RightYearDay 2023 n := by
  decide +kernel

theorem right_leap_year : ∀ n < 365, RightYearDay 2024 n := by
  decide +kernel

/-- The first 365 days of every year are found. -/
theorem rightYearDay (year : Nat) {n : Nat} (h : n < 365) : RightYearDay year n := by
  cases hleap : isLeap year with
  | true => exact (right_leap_year n h).congr (hleap.trans (by decide : true = isLeap 2024))
  | false => exact (right_common_year n h).congr (hleap.trans (by decide : false = isLeap 2023))

/-- The days before a year, by the cycles of 400, 100, 4 and 1 years that are over. -/
theorem daysBeforeYear_cycles {a b c d : Nat} (hb : b < 4) (hc : c < 25) (hd : d < 4) :
    daysBeforeYear (a * 400 + b * 100 + c * 4 + d + 1) =
      a * 146097 + b * 36524 + c * 1461 + d * 365 := by
  have h4 : (a * 400 + b * 100 + c * 4 + d) / 4 = a * 100 + b * 25 + c := by omega
  have h100 : (a * 400 + b * 100 + c * 4 + d) / 100 = a * 4 + b := by omega
  have h400 : (a * 400 + b * 100 + c * 4 + d) / 400 = a := by omega
  simp only [daysBeforeYear, Nat.add_sub_cancel, h4, h100, h400]
  omega

/-- The last day of a leap year. -/
theorem ymdToOrd_leap_end {year : Nat} (h : isLeap year = true) :
    ymdToOrd year 12 31 = daysBeforeYear year + 366 := by
  rw [ymdToOrd, daysBeforeMonth_congr (h.trans (by decide : true = isLeap 2024)),
    show daysBeforeMonth 2024 12 = 335 from rfl]

theorem isDate_year_end {year : Nat} (h : 1 ≤ year) (hmax : year ≤ 9999) : IsDate year 12 31 :=
  ⟨⟨h, hmax⟩, by decide, by decide, by simp [daysInMonth]⟩

/-- Day numbers up to the last day of year 9999 name dates, and are the numbers of these. -/
theorem ordToYmd_spec {n : Nat} (h : 1 ≤ n) (hmax : n ≤ DateTime.maxOrdinal) :
    IsDate (ordToYmd n).1 (ordToYmd n).2.1 (ordToYmd n).2.2 ∧
      ymdToOrd (ordToYmd n).1 (ordToYmd n).2.1 (ordToYmd n).2.2 = n := by
  have hlast : DateTime.maxOrdinal = 3652059 := rfl
  obtain ⟨m, rfl⟩ : ∃ m, n = m + 1 := ⟨n - 1, by omega⟩
  -- the cycles of 400, 100, 4 and 1 years that are over, and what is left of the cycle in each
  have h400 := Nat.div_add_mod m 146097
  have h100 := Nat.div_add_mod (m % 146097) 36524
  have h4 := Nat.div_add_mod (m % 146097 % 36524) 1461
  have h1 := Nat.div_add_mod (m % 146097 % 36524 % 1461) 365
  have hr400 := Nat.mod_lt m (by decide : 0 < 146097)
  have hr100 := Nat.mod_lt (m % 146097) (by decide : 0 < 36524)
  have hr4 := Nat.mod_lt (m % 146097 % 36524) (by decide : 0 < 1461)
  have hr1 := Nat.mod_lt (m % 146097 % 36524 % 1461) (by decide : 0 < 365)
  have hunfold : ordToYmd (m + 1) =
      if m % 146097 % 36524 % 1461 / 365 = 4 ∨ m % 146097 / 36524 = 4 then
        (m / 146097 * 400 + 1 + m % 146097 / 36524 * 100 + m % 146097 % 36524 / 1461 * 4 +
          m % 146097 % 36524 % 1461 / 365 - 1, 12, 31)
      else ofYearDay (m / 146097 * 400 + 1 + m % 146097 / 36524 * 100 +
        m % 146097 % 36524 / 1461 * 4 + m % 146097 % 36524 % 1461 / 365)
          (m % 146097 % 36524 % 1461 % 365) := rfl
  rw [hunfold]
  clear hunfold
  generalize m % 146097 % 36524 % 1461 / 365 = d at *
  generalize m % 146097 % 36524 % 1461 % 365 = k at *
  generalize m % 146097 % 36524 / 1461 = c at *
  generalize m % 146097 % 36524 % 1461 = r4 at *
  generalize m % 146097 / 36524 = b at *
  generalize m % 146097 % 36524 = r100 at *
  generalize m / 146097 = a at *
  generalize m % 146097 = r400 at *
  have hleapEnd : ∀ y, 1 ≤ y → y ≤ 9999 → isLeap y = true → daysBeforeYear y + 366 = m + 1 →
      IsDate y 12 31 ∧ ymdToOrd y 12 31 = m + 1 := fun y hy hy' hleap hdays =>
    ⟨isDate_year_end hy hy', (ymdToOrd_leap_end hleap).trans hdays⟩
  split
  · rename_i hend
    by_cases hb : b = 4
    · -- the last day of 400 years
      have hc : c = 0 := by omega
      have hd : d = 0 := by omega
      have hyear : a * 400 + 1 + b * 100 + c * 4 + d - 1 = a * 400 + 3 * 100 + 24 * 4 + 3 + 1 := by
        omega
      have hbefore := daysBeforeYear_cycles (a := a) (by decide : 3 < 4) (by decide : 24 < 25)
        (by decide : 3 < 4)
      rw [hyear]
      dsimp only
      refine hleapEnd _ (by omega) (by omega) ?_ (by omega)
      simp [isLeap]
      omega
    · -- the last day of four years
      have hd : d = 4 := by omega
      have hc : c < 24 := by omega
      have hyear : a * 400 + 1 + b * 100 + c * 4 + d - 1 = a * 400 + b * 100 + c * 4 + 3 + 1 := by
        omega
      have hbefore := daysBeforeYear_cycles (a := a) (by omega : b < 4) (by omega : c < 25)
        (by decide : 3 < 4)
      rw [hyear]
      dsimp only
      refine hleapEnd _ (by omega) (by omega) ?_ (by omega)
      simp [isLeap]
      omega
  · have hb : b < 4 := by omega
    have hc : c < 25 := by omega
    have hd : d < 4 := by omega
    have hyear : a * 400 + 1 + b * 100 + c * 4 + d = a * 400 + b * 100 + c * 4 + d + 1 := by omega
    rw [hyear]
    obtain ⟨hsame, hmonth, hdays, hsum⟩ :=
      rightYearDay (a * 400 + b * 100 + c * 4 + d + 1) hr1
    have htotal : daysBeforeYear (a * 400 + b * 100 + c * 4 + d + 1) + (k + 1) = m + 1 := by
      have hbefore := daysBeforeYear_cycles (a := a) hb hc hd
      generalize daysBeforeYear (a * 400 + b * 100 + c * 4 + d + 1) = before at hbefore ⊢
      omega
    generalize ofYearDay (a * 400 + b * 100 + c * 4 + d + 1) k = found at hsame hmonth hdays hsum ⊢
    obtain ⟨year, month, day⟩ := found
    dsimp only at hsame hmonth hdays hsum ⊢
    subst hsame
    refine ⟨⟨⟨by omega, by omega⟩, hmonth, hdays⟩, ?_⟩
    rw [ymdToOrd, Nat.add_assoc, hsum]
    exact htotal

/-- The date of a day number. -/
def ofOrdinal (n : Nat) (h : 1 ≤ n ∧ n ≤ DateTime.maxOrdinal) : Date :=
  ⟨(ordToYmd n).1, (ordToYmd n).2.1, (ordToYmd n).2.2, (ordToYmd_spec h.1 h.2).1⟩

@[simp] theorem ordinal_ofOrdinal (n : Nat) (h : 1 ≤ n ∧ n ≤ DateTime.maxOrdinal) :
    (ofOrdinal n h).ordinal = n :=
  (ordToYmd_spec h.1 h.2).2

end Date

namespace DateTime

/-! ## Clocks -/

/-- `HH:MM:SS.ffffff` of the microseconds of a day. -/
def clockText (micros : Nat) : Text :=
  padDigits 2 (micros / 3600000000) ++ ':' :: (padDigits 2 (micros / 60000000 % 60) ++ ':' ::
    (padDigits 2 (micros / 1000000 % 60) ++ '.' :: padDigits 6 (micros % 1000000)))

@[simp] theorem length_clockText (micros : Nat) : (clockText micros).length = 15 := by
  simp [clockText]

/-- The fields of the microseconds of a day are in range. -/
theorem clock_fields {micros : Nat} (h : micros < dayMicros) :
    IsTime (micros / 3600000000) (micros / 60000000 % 60) (micros / 1000000 % 60)
      (micros % 1000000) := by
  have hday : dayMicros = 86400000000 := rfl
  exact ⟨by omega, by omega, by omega, by omega⟩

/-- The text of clocks compares as their microseconds do. -/
theorem clockText_le_iff {m n : Nat} (hm : m < dayMicros) (hn : n < dayMicros) :
    textLe (clockText m) (clockText n) = true ↔ m ≤ n := by
  obtain ⟨hhour, hminute, hsecond, hmicro⟩ := clock_fields hm
  obtain ⟨hhour', hminute', hsecond', hmicro'⟩ := clock_fields hn
  have hmsum := offset_fields m
  have hnsum := offset_fields n
  have hlast := textLe_padDigits (s := []) (t := []) (w := 6) hmicro hmicro'
  simp only [List.append_nil, textLe, and_true] at hlast
  rw [clockText, clockText, textLe_padDigits (lt_trans hhour (by decide))
      (lt_trans hhour' (by decide)), textLe_cons_self,
    textLe_padDigits (lt_trans hminute (by decide)) (lt_trans hminute' (by decide)),
    textLe_cons_self, textLe_padDigits (lt_trans hsecond (by decide))
      (lt_trans hsecond' (by decide)), textLe_cons_self, hlast]
  generalize m / 3600000000 = h, m / 60000000 % 60 = mi, m / 1000000 % 60 = s,
    m % 1000000 = us at *
  generalize n / 3600000000 = h', n / 60000000 % 60 = mi', n / 1000000 % 60 = s',
    n % 1000000 = us' at *
  omega

/-- A clock is read by its fields. -/
theorem parseTimeFields_clockText {micros : Nat} (h : micros < dayMicros) :
    parseTimeFields (clockText micros) = some (micros / 3600000000, micros / 60000000 % 60,
      micros / 1000000 % 60, micros % 1000000, false) := by
  obtain ⟨hhour, hminute, hsecond, hmicro⟩ := clock_fields h
  exact parseTimeFields_seconds (lt_trans hhour (by decide)) (lt_trans hminute (by decide))
    (parseFields_fraction 0 (lt_trans hsecond (by decide)) hmicro)

theorem clockText_no_mark (micros : Nat) : ∀ c ∈ clockText micros, (!isOffsetMark c) = true := by
  intro c hc
  have hdigits : ∀ w n, c ∈ padDigits w n → (!isOffsetMark c) = true := fun w n h => by
    rw [isOffsetMark_digit (padDigits_isDigit w n c h)]
    rfl
  simp only [clockText, List.mem_append, List.mem_cons] at hc
  rcases hc with h | rfl | h | rfl | h | rfl | h
  all_goals first | exact hdigits _ _ h | decide

/-! ## Instants -/

/-- The instants of the years 1 to 9999. -/
def InCalendar (instant : Int) : Prop :=
  (dayMicros : Int) ≤ instant ∧ instant < (maxOrdinal + 1) * (dayMicros : Int)

theorem utcInstant_some {t : DateTime} {instant : Int} (h : t.utcInstant = some instant) :
    InCalendar instant := by
  unfold utcInstant at h
  split at h
  · cases h
    assumption
  · cases h

namespace InCalendar

variable {a b : Int}

/-- The day number of an instant. -/
theorem ordinal (h : InCalendar a) :
    1 ≤ (a / dayMicros).toNat ∧ (a / dayMicros).toNat ≤ maxOrdinal := by
  obtain ⟨hfirst, hlast⟩ := h
  have hday : (dayMicros : Int) = 86400000000 := rfl
  have hmax : maxOrdinal = 3652059 := rfl
  rw [hday] at hfirst hlast ⊢
  rw [hmax] at hlast ⊢
  omega

/-- The day of an instant. -/
def date (h : InCalendar a) : Date := Date.ofOrdinal (a / dayMicros).toNat h.ordinal

/-- The microseconds of an instant since midnight. -/
theorem micros_lt (a : Int) : (a % dayMicros).toNat < dayMicros := by
  have hday : (dayMicros : Int) = 86400000000 := rfl
  have hnat : dayMicros = 86400000000 := rfl
  rw [hday, hnat]
  omega

/-- The text of days and clocks compares as their instants do, whatever ends both texts. -/
theorem text_le_iff (ha : InCalendar a) (hb : InCalendar b) (tail : Text) :
    textLe (ha.date.isoformat ++ 'T' :: (clockText (a % dayMicros).toNat ++ tail))
      (hb.date.isoformat ++ 'T' :: (clockText (b % dayMicros).toNat ++ tail)) = true ↔ a ≤ b := by
  have hlength : ∀ d d' : Date, d.isoformat.length = d'.isoformat.length := by
    simp [Date.isoformat]
  have hclocks := clockText_le_iff (micros_lt a) (micros_lt b)
  have hself : textLe tail tail = true := textLe_self tail
  have hclock : textLe (clockText (a % dayMicros).toNat ++ tail)
      (clockText (b % dayMicros).toNat ++ tail) = true ↔
        (a % dayMicros).toNat ≤ (b % dayMicros).toNat := by
    rw [textLe_append (by simp), hclocks]
    constructor
    · rintro (⟨-, hle⟩ | ⟨heq, -⟩)
      · exact hle
      · rw [← hclocks, heq]
        exact textLe_self _
    · intro hle
      by_cases heq : clockText (a % dayMicros).toNat = clockText (b % dayMicros).toNat
      · exact Or.inr ⟨heq, hself⟩
      · exact Or.inl ⟨heq, hle⟩
  have hdates : ∀ {d d' : Date}, d < d' ↔ d.ordinal < d'.ordinal := Date.ordinal_lt_iff.symm
  have hsame : ha.date = hb.date ↔ (a / dayMicros).toNat = (b / dayMicros).toNat := by
    constructor
    · intro heq
      have hordinals := congrArg Date.ordinal heq
      simpa only [date, Date.ordinal_ofOrdinal] using hordinals
    · intro heq
      simp only [date, heq]
  have hday : (dayMicros : Int) = 86400000000 := rfl
  have hbounds := ha.ordinal
  have hbounds' := hb.ordinal
  rw [textLe_append (hlength _ _), textLe_cons_self, hclock, Date.isoformat_le_iff,
    Date.isoformat_injective.ne_iff, Date.isoformat_injective.eq_iff, and_comm, ← lt_iff_le_and_ne,
    hdates, hsame]
  simp only [date, Date.ordinal_ofOrdinal]
  rw [hday] at hbounds hbounds' ⊢
  omega

/-- The text of a day and a clock in UTC is read as its instant. -/
theorem fromisoformat_text (h : InCalendar a) (offset : UtcOffset) (hzero : offset.val = 0) :
    ∃ t : DateTime, fromisoformat (h.date.isoformat ++ 'T' ::
      (clockText (a % dayMicros).toNat ++ formatOffset offset)) = some t ∧ t.isAware = true ∧
        t.instant = a := by
  have hclock := clock_fields (micros_lt a)
  have hread := parseTime_clock h.date (some offset) (clockText_no_mark _)
    (parseTimeFields_clockText (micros_lt a))
  refine ⟨_, (fromisoformat_date _ _).trans (hread.trans (dif_pos hclock)), rfl, ?_⟩
  have hordinal : Date.ymdToOrd h.date.year h.date.month h.date.day = (a / dayMicros).toNat :=
    Date.ordinal_ofOrdinal _ h.ordinal
  have hfields := offset_fields (a % dayMicros).toNat
  have hbounds := h.ordinal
  have hday : (dayMicros : Int) = 86400000000 := rfl
  simp only [instant, wallMicros, hordinal, hfields, Option.map_some, Option.getD_some, hzero]
  rw [hday] at hbounds ⊢
  omega

/-- An instant has its datetime in UTC. -/
theorem ofInstant_ne_none (h : InCalendar a) : ofInstant a ≠ none := by
  have hdate : Date.ofNumbers (Date.ordToYmd (a / dayMicros).toNat).1
      (Date.ordToYmd (a / dayMicros).toNat).2.1 (Date.ordToYmd (a / dayMicros).toNat).2.2 =
      some h.date := dif_pos h.date.valid
  have hclock := clock_fields (micros_lt a)
  have hzero : ofOffset 0 = some ⟨0, zero_lt_day⟩ := dif_pos zero_lt_day
  simp only [ofInstant, hdate, hzero, Option.bind_some, ofNumbers, dif_pos hclock, ne_eq,
    reduceCtorEq, not_false_eq_true]

end InCalendar

/-- An aware datetime with an instant converts to UTC. -/
theorem astimezoneUtc_ne_none {t : DateTime} {instant : Int} (h : t.utcInstant = some instant) :
    t.astimezoneUtc ≠ none := by
  rw [astimezoneUtc]
  split
  · exact Option.some_ne_none t
  · rw [h, Option.bind_some]
    exact (utcInstant_some h).ofInstant_ne_none

end DateTime

end Pine
