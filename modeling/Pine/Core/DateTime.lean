import Pine.Core.Calendar

/-!
# Timestamps

Datetimes with an optional UTC offset in microseconds, their ISO text, and every
spelling that `datetime.fromisoformat` accepts. An aware datetime stands for an
instant; converting it to UTC fails outside years 1 to 9999.
-/

namespace Pine

/-- One day in microseconds. -/
def dayMicros : Nat := 24 * 60 * 60 * 1000000

/-- The numbers name a time of day. -/
def IsTime (hour minute second microsecond : Nat) : Prop :=
  hour < 24 ∧ minute < 60 ∧ second < 60 ∧ microsecond < 1000000

instance (hour minute second microsecond : Nat) :
    Decidable (IsTime hour minute second microsecond) :=
  inferInstanceAs (Decidable (_ ∧ _))

/-- An offset lies strictly between minus one day and one day. -/
abbrev UtcOffset := {micros : Int // micros.natAbs < dayMicros}

theorem zero_lt_day : (0 : Int).natAbs < dayMicros := by decide

/-- A date and time of day, aware when it has an offset. -/
@[ext]
structure DateTime where
  date : Date
  hour : Nat
  minute : Nat
  second : Nat
  microsecond : Nat
  offset : Option UtcOffset
  valid : IsTime hour minute second microsecond
  deriving DecidableEq

namespace DateTime

/-- `value.tzinfo is not None and value.utcoffset() is not None` -/
def isAware (t : DateTime) : Bool := t.offset.isSome

/-- Microseconds of the wall clock since the day before year 1. -/
def wallMicros (t : DateTime) : Int :=
  Date.ymdToOrd t.date.year t.date.month t.date.day * (dayMicros : Int) +
    (((t.hour * 60 + t.minute) * 60 + t.second) * 1000000 + t.microsecond : Nat)

/-- The instant of an aware datetime in UTC microseconds. -/
def instant (t : DateTime) : Int := t.wallMicros - (t.offset.map Subtype.val).getD 0

/-- The last day of year 9999. -/
def maxOrdinal : Nat := 3652059

/-- `value.astimezone(UTC)` as its instant; `none` is an `OverflowError`. -/
def utcInstant (t : DateTime) : Option Int :=
  if (dayMicros : Int) ≤ t.instant ∧ t.instant < (maxOrdinal + 1) * (dayMicros : Int) then
    some t.instant
  else none

/-! ## Writing -/

/-- `:SS` and `.ffffff` of an offset, left out when zero. -/
def formatOffsetTail (micros : Nat) : Text :=
  let seconds := micros / 1000000 % 60
  let fraction := micros % 1000000
  (if seconds = 0 ∧ fraction = 0 then [] else ':' :: padDigits 2 seconds) ++
    (if fraction = 0 then [] else '.' :: padDigits 6 fraction)

/-- `+HH:MM[:SS[.ffffff]]` -/
def formatOffset (offset : UtcOffset) : Text :=
  let micros := offset.val.natAbs
  (if offset.val < 0 then '-' else '+') ::
    (padDigits 2 (micros / 3600000000) ++ ':' ::
      (padDigits 2 (micros / 60000000 % 60) ++ formatOffsetTail micros))

/-- `HH:MM:SS[.ffffff]` -/
def formatTime (t : DateTime) : Text :=
  padDigits 2 t.hour ++ ':' :: (padDigits 2 t.minute ++ ':' :: (padDigits 2 t.second ++
    if t.microsecond = 0 then [] else '.' :: padDigits 6 t.microsecond))

/-- `datetime.isoformat()` -/
def isoformat (t : DateTime) : Text :=
  t.date.isoformat ++ 'T' :: (t.formatTime ++ (t.offset.map formatOffset).getD [])

/-! ## Reading -/

/-- The digits after a fraction mark, as microseconds, and whether text is left after them. -/
def parseFraction (s : Text) : Option (Nat × Bool) :=
  let count := min s.length 6
  if count = 0 then none
  else do
    let (n, rest) ← Date.takeNumber count s
    some (n * 10 ^ (6 - count), !(rest.dropWhile Char.isDigit).isEmpty)

/-- What follows the fields read so far: more fields are read up to the third. -/
def parseFields (separated : Bool) : Nat → Text → Option (List Nat × Nat × Bool)
  | 0, s => (parseFraction s).map fun (micro, left) => ([], micro, left)
  | fields + 1, s => do
    let (n, s) ← Date.takeNumber 2 s
    match s with
    | [] => some ([n], 0, false)
    | [_] => some ([n], 0, true)
    | c :: r =>
      if separated && c == ':' then
        (parseFields separated fields r).map fun (ns, rest) => (n :: ns, rest)
      else if c = '.' ∨ c = ',' then
        (parseFraction r).map fun (micro, left) => ([n], micro, left)
      else if separated then none
      else (parseFields separated fields (c :: r)).map fun (ns, rest) => (n :: ns, rest)

/-- `HH[:?MM[:?SS[.f+]]]`: hour, minute, second, microsecond, and whether text is left over. -/
def parseTimeFields (s : Text) : Option (Nat × Nat × Nat × Nat × Bool) := do
  let separated := (s.drop 2).head? == some ':'
  let (ns, micro, left) ← parseFields separated 3 s
  some (ns.getD 0 0, ns.getD 1 0, ns.getD 2 0, micro, left)

/-- An offset in range. -/
def ofOffset (micros : Int) : Option UtcOffset :=
  if h : micros.natAbs < dayMicros then some ⟨micros, h⟩ else none

/-- The offset text from its sign or `Z` on. -/
def parseOffset : Text → Option UtcOffset
  | [] => none
  | sign :: r =>
    if sign = 'Z' then if r = [] then ofOffset 0 else none
    else do
      let (hour, minute, second, micro, left) ← parseTimeFields r
      if left then none
      else
        let micros : Int := (((hour * 60 + minute) * 60 + second) * 1000000 + micro : Nat)
        ofOffset (if sign = '-' then -micros else micros)

/-- A sign or `Z` begins the offset. -/
def isOffsetMark (c : Char) : Bool := c == '+' || c == '-' || c == 'Z'

/-- A datetime from checked numbers; `none` is a `ValueError`. -/
def ofNumbers (date : Date) (hour minute second microsecond : Nat) (offset : Option UtcOffset) :
    Option DateTime :=
  if h : IsTime hour minute second microsecond then
    some ⟨date, hour, minute, second, microsecond, offset, h⟩
  else none

/-- The time and offset text after the separator; text left before an offset is not checked. -/
def parseTime (date : Date) (s : Text) : Option DateTime := do
  let clock := s.takeWhile fun c => !isOffsetMark c
  let zone := s.dropWhile fun c => !isOffsetMark c
  let (hour, minute, second, micro, left) ← parseTimeFields clock
  if zone = [] then
    if left then none else ofNumbers date hour minute second micro none
  else
    let offset ← parseOffset zone
    ofNumbers date hour minute second micro (some offset)

/-- Where the date part of an ISO text ends. -/
def separatorLocation (s : Text) : Nat :=
  let digitAt := fun i => ((s.drop i).head?.map Char.isDigit).getD false
  let charAt := fun i (c : Char) => (s.drop i).head? == some c
  if s.length = 7 then 7
  else if charAt 4 '-' then
    if charAt 5 'W' then
      if charAt 8 '-' then if 10 < s.length ∧ digitAt 10 then 8 else 10
      else 8
    else 10
  else if charAt 4 'W' then
    let stop := 7 + ((s.drop 7).takeWhile Char.isDigit).length
    if stop < 9 then stop else if stop % 2 = 0 then 7 else 8
  else 8

/-- `datetime.fromisoformat`; `none` is a `ValueError`. -/
def fromisoformat (s : Text) : Option DateTime := do
  let location := separatorLocation s
  let date ← Date.parseIsoformatDate (s.take location)
  if s.length ≤ location then ofNumbers date 0 0 0 0 none
  else parseTime date (s.drop (location + 1))

/-! ## Conversion to UTC -/

/-- The datetime at an instant, with offset zero. -/
def ofInstant (instant : Int) : Option DateTime :=
  let micros := (instant % dayMicros).toNat
  let (year, month, day) := Date.ordToYmd (instant / dayMicros).toNat
  (Date.ofNumbers year month day).bind fun date =>
    ofNumbers date (micros / 3600000000) (micros / 60000000 % 60) (micros / 1000000 % 60)
      (micros % 1000000) (ofOffset 0)

/-- `value.astimezone(UTC)` of an aware datetime; one that is in UTC is kept. -/
def astimezoneUtc (t : DateTime) : Option DateTime :=
  if t.offset.map Subtype.val = some 0 then some t else t.utcInstant.bind ofInstant

/-! ## Reading inverts writing -/

theorem takeNumber_two {n : Nat} (s : Text) (h : n < 100) :
    Date.takeNumber 2 (padDigits 2 n ++ s) = some (n, s) :=
  Date.takeNumber_padDigits s h

theorem parseFraction_padDigits {m : Nat} (h : m < 1000000) :
    parseFraction (padDigits 6 m) = some (m, false) := by
  have htake := Date.takeNumber_padDigits (w := 6) [] h
  simp only [List.append_nil] at htake
  simp [parseFraction, htake]

/-- The last field of a clock, with a fraction. -/
theorem parseFields_fraction {n m : Nat} (fields : Nat) (hn : n < 100) (hm : m < 1000000) :
    parseFields true (fields + 1) (padDigits 2 n ++ '.' :: padDigits 6 m) =
      some ([n], m, false) := by
  obtain ⟨c, t, hcons⟩ : ∃ c t, padDigits 6 m = c :: t := by
    cases h : padDigits 6 m with
    | nil => exact absurd (congrArg List.length h) (by simp)
    | cons c t => exact ⟨c, t, rfl⟩
  have hfraction := parseFraction_padDigits hm
  rw [parseFields, takeNumber_two _ hn]
  rw [hcons] at hfraction
  simp [hcons, hfraction]

/-- The last field of a clock, with an optional fraction. -/
theorem parseFields_last {n m : Nat} (fields : Nat) (hn : n < 100) (hm : m < 1000000) :
    parseFields true (fields + 1) (padDigits 2 n ++ if m = 0 then [] else '.' :: padDigits 6 m) =
      some ([n], m, false) := by
  by_cases hzero : m = 0
  · rw [parseFields, if_pos hzero, takeNumber_two _ hn]
    simp [hzero]
  · rw [if_neg hzero]
    exact parseFields_fraction fields hn hm

/-- A field before a colon. -/
theorem parseFields_colon {n : Nat} {s : Text} (fields : Nat) (hn : n < 100) (hs : s ≠ []) :
    parseFields true (fields + 1) (padDigits 2 n ++ ':' :: s) =
      (parseFields true fields s).map fun (ns, rest) => (n :: ns, rest) := by
  cases s with
  | nil => exact absurd rfl hs
  | cons c t =>
    rw [parseFields, takeNumber_two _ hn]
    simp

theorem padDigits_two_append_ne_nil (n : Nat) (s : Text) : padDigits 2 n ++ s ≠ [] := by
  intro h
  have hlen := congrArg List.length h
  simp at hlen

theorem head_drop_padDigits (n : Nat) (s : Text) :
    ((padDigits 2 n ++ s).drop 2).head? = s.head? := by
  rw [List.drop_left' (length_padDigits 2 n)]

/-- A clock of three fields, the last one with what follows it. -/
theorem parseTimeFields_seconds {hour minute second micro : Nat} {tail : Text} (hh : hour < 100)
    (hm : minute < 100)
    (hlast : parseFields true 1 (padDigits 2 second ++ tail) = some ([second], micro, false)) :
    parseTimeFields (padDigits 2 hour ++ ':' :: (padDigits 2 minute ++ ':' ::
      (padDigits 2 second ++ tail))) = some (hour, minute, second, micro, false) := by
  rw [parseTimeFields, head_drop_padDigits]
  simp only [List.head?_cons, beq_self_eq_true]
  rw [parseFields_colon 2 hh (padDigits_two_append_ne_nil _ _),
    parseFields_colon 1 hm (padDigits_two_append_ne_nil _ _), hlast]
  rfl

theorem parseTimeFields_clock {hour minute second micro : Nat} (hh : hour < 100)
    (hm : minute < 100) (hs : second < 100) (hmicro : micro < 1000000) :
    parseTimeFields (padDigits 2 hour ++ ':' :: (padDigits 2 minute ++ ':' ::
      (padDigits 2 second ++ if micro = 0 then [] else '.' :: padDigits 6 micro))) =
      some (hour, minute, second, micro, false) :=
  parseTimeFields_seconds hh hm (parseFields_last 0 hs hmicro)

/-- A clock of two fields. -/
theorem parseTimeFields_minutes {hour minute : Nat} (hh : hour < 100) (hm : minute < 100) :
    parseTimeFields (padDigits 2 hour ++ ':' :: padDigits 2 minute) =
      some (hour, minute, 0, 0, false) := by
  have hlast := parseFields_last (m := 0) 1 hm (by decide)
  simp only [if_true, List.append_nil] at hlast
  have hne : padDigits 2 minute ≠ [] := by simpa using padDigits_two_append_ne_nil minute []
  rw [parseTimeFields, head_drop_padDigits]
  simp only [List.head?_cons, beq_self_eq_true]
  rw [parseFields_colon 2 hh hne, hlast]
  rfl

/-- The fields of an offset are read back, with the seconds it leaves out as zero. -/
theorem parseTimeFields_offset {micros : Nat} (h : micros < dayMicros) :
    parseTimeFields (padDigits 2 (micros / 3600000000) ++ ':' ::
      (padDigits 2 (micros / 60000000 % 60) ++ formatOffsetTail micros)) =
      some (micros / 3600000000, micros / 60000000 % 60, micros / 1000000 % 60,
        micros % 1000000, false) := by
  have hday : dayMicros = 86400000000 := rfl
  have hhour : micros / 3600000000 < 100 := by omega
  have hminute : micros / 60000000 % 60 < 100 := by omega
  have hsecond : micros / 1000000 % 60 < 100 := by omega
  have hmicro : micros % 1000000 < 1000000 := by omega
  by_cases hzero : micros / 1000000 % 60 = 0 ∧ micros % 1000000 = 0
  · simp only [formatOffsetTail, hzero, and_self, if_true, List.append_nil]
    exact parseTimeFields_minutes hhour hminute
  · simp only [formatOffsetTail, hzero, if_false, List.cons_append]
    exact parseTimeFields_clock hhour hminute hsecond hmicro

/-- The fields of an offset add up to its microseconds. -/
theorem offset_fields (micros : Nat) :
    ((micros / 3600000000 * 60 + micros / 60000000 % 60) * 60 + micros / 1000000 % 60) * 1000000 +
      micros % 1000000 = micros := by
  omega

theorem ofOffset_val (offset : UtcOffset) : ofOffset offset.val = some offset := by
  rw [ofOffset, dif_pos offset.property]

/-- A signed offset is read by its fields. -/
theorem parseOffset_signed {sign : Char} (h : sign ≠ 'Z') (s : Text) :
    parseOffset (sign :: s) = (parseTimeFields s).bind fun (hour, minute, second, micro, left) =>
      if left then none
      else
        let micros : Int := (((hour * 60 + minute) * 60 + second) * 1000000 + micro : Nat)
        ofOffset (if sign = '-' then -micros else micros) := by
  rw [parseOffset, if_neg h]
  rfl

theorem parseOffset_formatOffset (offset : UtcOffset) :
    parseOffset (formatOffset offset) = some offset := by
  have hsign : (if offset.val < 0 then '-' else '+') ≠ 'Z' := by
    split <;> decide
  have hvalue : (if (if offset.val < 0 then '-' else '+') = '-' then -(offset.val.natAbs : Int)
      else offset.val.natAbs) = offset.val := by
    by_cases hneg : offset.val < 0
    · rw [if_pos hneg, if_pos rfl]
      omega
    · rw [if_neg hneg, if_neg (by decide)]
      omega
  rw [formatOffset, parseOffset_signed hsign, parseTimeFields_offset offset.property,
    Option.bind_some]
  simp only [Bool.false_eq_true, if_false, offset_fields, hvalue, ofOffset_val]

theorem isOffsetMark_digit {c : Char} (h : c.isDigit = true) : isOffsetMark c = false := by
  have hne : ∀ d : Char, d.isDigit = false → c ≠ d := by
    rintro d hd rfl
    rw [h] at hd
    cases hd
  simp [isOffsetMark, hne '+' (by decide), hne '-' (by decide), hne 'Z' (by decide)]

/-- A clock holds no offset mark. -/
theorem formatTime_no_mark (t : DateTime) : ∀ c ∈ t.formatTime, (!isOffsetMark c) = true := by
  intro c hc
  have hdigits : ∀ w n, c ∈ padDigits w n → (!isOffsetMark c) = true := fun w n h => by
    rw [isOffsetMark_digit (padDigits_isDigit w n c h)]
    rfl
  simp only [formatTime, List.mem_append, List.mem_cons] at hc
  rcases hc with h | rfl | h | rfl | h | h
  · exact hdigits _ _ h
  · decide
  · exact hdigits _ _ h
  · decide
  · exact hdigits _ _ h
  · split at h
    · cases h
    · rcases List.mem_cons.mp h with rfl | h
      · decide
      · exact hdigits _ _ h

/-- An offset text begins with its mark. -/
theorem head_formatOffset (offset : Option UtcOffset) :
    ∀ c ∈ ((offset.map formatOffset).getD []).head?, (!isOffsetMark c) = false := by
  intro c hc
  cases offset with
  | none => simp at hc
  | some offset =>
    simp only [Option.map_some, Option.getD_some, formatOffset, List.head?_cons, Option.mem_def,
      Option.some.injEq] at hc
    subst hc
    split <;> rfl

/-- A clock without marks ends where the offset begins. -/
theorem span_clock {clock zone : Text} (hclock : ∀ c ∈ clock, (!isOffsetMark c) = true)
    (hz : ∀ c ∈ zone.head?, (!isOffsetMark c) = false) :
    (clock ++ zone).takeWhile (fun c => !isOffsetMark c) = clock ∧
      (clock ++ zone).dropWhile (fun c => !isOffsetMark c) = zone := by
  rw [List.takeWhile_append_of_pos hclock, List.dropWhile_append_of_pos hclock]
  cases zone with
  | nil => simp
  | cons c zone =>
    have hc := hz c (by simp)
    simp [hc]

/-- The time after the separator is read by the fields of its clock and its offset. -/
theorem parseTime_clock (date : Date) {clock : Text} {hour minute second microsecond : Nat}
    (offset : Option UtcOffset) (hclock : ∀ c ∈ clock, (!isOffsetMark c) = true)
    (hfields : parseTimeFields clock = some (hour, minute, second, microsecond, false)) :
    parseTime date (clock ++ (offset.map formatOffset).getD []) =
      ofNumbers date hour minute second microsecond offset := by
  obtain ⟨hbefore, hzone⟩ := span_clock hclock (head_formatOffset offset)
  simp only [parseTime, hbefore, hzone, hfields, Option.bind_eq_bind, Option.bind_some]
  cases offset with
  | none => simp
  | some offset =>
    have hne : formatOffset offset ≠ [] := by simp [formatOffset]
    simp [hne, parseOffset_formatOffset]

theorem parseTime_format (t : DateTime) :
    parseTime t.date (t.formatTime ++ (t.offset.map formatOffset).getD []) = some t := by
  have hvalid := t.valid
  have hfields : parseTimeFields t.formatTime =
      some (t.hour, t.minute, t.second, t.microsecond, false) :=
    parseTimeFields_clock (lt_trans hvalid.1 (by decide)) (lt_trans hvalid.2.1 (by decide))
      (lt_trans hvalid.2.2.1 (by decide)) hvalid.2.2.2
  rw [parseTime_clock t.date t.offset t.formatTime_no_mark hfields, ofNumbers, dif_pos hvalid]

/-- The text of a date is read before the time that follows it. -/
theorem fromisoformat_date (d : Date) (clock : Text) :
    fromisoformat (d.isoformat ++ 'T' :: clock) = parseTime d clock := by
  have hlen : d.isoformat.length = 10 := by simp [Date.isoformat]
  have hlocation : separatorLocation (d.isoformat ++ 'T' :: clock) = 10 := by
    have h4 : ((d.isoformat ++ 'T' :: clock).drop 4).head? = some '-' := by
      simp only [Date.isoformat, List.append_assoc]
      rw [List.drop_left' (length_padDigits 4 _)]
      rfl
    have h5 : ((d.isoformat ++ 'T' :: clock).drop 5).head? ≠ some 'W' := by
      have hdrop : (d.isoformat ++ 'T' :: clock).drop 5 = padDigits 2 d.month ++
          ('-' :: padDigits 2 d.day ++ 'T' :: clock) := by
        rw [← List.drop_drop (i := 1) (j := 4)]
        simp only [Date.isoformat, List.append_assoc]
        rw [List.drop_left' (length_padDigits 4 _)]
        simp
      rw [hdrop]
      cases h : padDigits 2 d.month with
      | nil => exact absurd (congrArg List.length h) (by simp)
      | cons c r =>
        have hc := Date.not_week_mark (padDigits_isDigit 2 d.month c (by simp [h]))
        simpa using hc
    have hlong : (d.isoformat ++ 'T' :: clock).length ≠ 7 := by
      simp [hlen]
      omega
    have h4' : (((d.isoformat ++ 'T' :: clock).drop 4).head? == some '-') = true :=
      beq_iff_eq.mpr h4
    have h5' : (((d.isoformat ++ 'T' :: clock).drop 5).head? == some 'W') = false :=
      beq_eq_false_iff_ne.mpr h5
    simp only [separatorLocation, hlong, h4', h5', if_true, if_false, Bool.false_eq_true]
  have htake : (d.isoformat ++ 'T' :: clock).take 10 = d.isoformat := List.take_left' hlen
  have hdrop : (d.isoformat ++ 'T' :: clock).drop 11 = clock := by
    rw [← List.drop_drop (i := 1) (j := 10), List.drop_left' hlen]
    rfl
  have hlong : ¬ (d.isoformat ++ 'T' :: clock).length ≤ 10 := by
    simp [hlen]
  simp only [fromisoformat, hlocation, htake, Date.parseIsoformatDate_isoformat, hlong, if_false,
    hdrop, Option.bind_eq_bind, Option.bind_some]

/-- Reading inverts writing. -/
theorem fromisoformat_isoformat (t : DateTime) : fromisoformat t.isoformat = some t := by
  rw [isoformat, fromisoformat_date, parseTime_format]

end DateTime

end Pine
