import InvoiceOps.Lib.Digits
import Mathlib.Tactic

/-! The proleptic Gregorian calendar by day ordinals (day 1 is 1 January of year 1), timestamps
with microseconds, and their ISO text. A day is determined by its year, month and day, and an
instant by its text in UTC. -/

namespace Calendar

def isLeap (y : ℕ) : Bool := y % 4 == 0 && (y % 100 != 0 || y % 400 == 0)

def daysBeforeYear (y : ℕ) : ℕ := (y - 1) * 365 + (y - 1) / 4 - (y - 1) / 100 + (y - 1) / 400

/-- Days of a common year before each month, January first. -/
def daysBeforeMonthTable : List ℕ := [0, 31, 59, 90, 120, 151, 181, 212, 243, 273, 304, 334]

def daysBeforeMonth (leap : Bool) (m : ℕ) : ℕ :=
  daysBeforeMonthTable.getD (m - 1) 0 + if leap && decide (2 < m) then 1 else 0

def ymdToOrdinal (ymd : ℕ × ℕ × ℕ) : ℕ :=
  daysBeforeYear ymd.1 + daysBeforeMonth (isLeap ymd.1) ymd.2.1 + ymd.2.2

/-- Month and day of the `n`-th day of a year, counted from zero. The guess `(n + 50) / 32` is
right or one too large. -/
def monthDay (leap : Bool) (n : ℕ) : ℕ × ℕ :=
  let guess := (n + 50) / 32
  let m := if n < daysBeforeMonth leap guess then guess - 1 else guess
  (m, n - daysBeforeMonth leap m + 1)

/-- Year, month and day of an ordinal: cycles of 400, 100, 4 and 1 years are split off in turn.
The last day of a 400-year or 4-year cycle falls out of that split as a fifth part. -/
def ordinalToYmd (ordinal : ℕ) : ℕ × ℕ × ℕ :=
  let n := ordinal - 1
  let n400 := n / 146097
  let n := n % 146097
  let n100 := n / 36524
  let n := n % 36524
  let n4 := n / 1461
  let n := n % 1461
  let n1 := n / 365
  let n := n % 365
  let year := n400 * 400 + 1 + n100 * 100 + n4 * 4 + n1
  if n1 = 4 ∨ n100 = 4 then (year - 1, 12, 31)
  else (year, monthDay (n1 == 3 && (n4 != 24 || n100 == 3)) n)

theorem monthDay_spec : ∀ leap : Bool, ∀ n < 365,
    daysBeforeMonth leap (monthDay leap n).1 + (monthDay leap n).2 = n + 1 ∧
      (monthDay leap n).1 ≤ 12 ∧ (monthDay leap n).2 ≤ 31 := by
  decide +kernel

theorem daysBeforeYear_cycles {a b c e : ℕ} (hb : b ≤ 3) (hc : c ≤ 24) (he : e ≤ 3) :
    daysBeforeYear (a * 400 + 1 + b * 100 + c * 4 + e) =
      a * 146097 + b * 36524 + c * 1461 + e * 365 := by
  have h4 : (a * 400 + b * 100 + c * 4 + e) / 4 = a * 100 + b * 25 + c := by omega
  have h100 : (a * 400 + b * 100 + c * 4 + e) / 100 = a * 4 + b := by omega
  have h400 : (a * 400 + b * 100 + c * 4 + e) / 400 = a := by omega
  rw [daysBeforeYear, show a * 400 + 1 + b * 100 + c * 4 + e - 1 = a * 400 + b * 100 + c * 4 + e by omega,
    h4, h100, h400]
  omega

theorem isLeap_cycles {a b c e : ℕ} (hb : b ≤ 3) (hc : c ≤ 24) (he : e ≤ 3) :
    isLeap (a * 400 + 1 + b * 100 + c * 4 + e) = (e == 3 && (c != 24 || b == 3)) := by
  have h4 : (a * 400 + 1 + b * 100 + c * 4 + e) % 4 = (e + 1) % 4 := by omega
  have h100 : (a * 400 + 1 + b * 100 + c * 4 + e) % 100 = (c * 4 + e + 1) % 100 := by omega
  have h400 : (a * 400 + 1 + b * 100 + c * 4 + e) % 400 = (b * 100 + c * 4 + e + 1) % 400 := by omega
  rw [isLeap, h4, h100, h400, Bool.eq_iff_iff]
  simp only [Bool.and_eq_true, Bool.or_eq_true, beq_iff_eq, bne_iff_ne, ne_eq]
  omega

/-- The last day of a 400-year or of a 4-year cycle is 31 December of its leap year. -/
theorem ymdToOrdinal_cycle_end {a b c : ℕ} (hb : b ≤ 3) (hc : c ≤ 24) (hleap : c ≠ 24 ∨ b = 3) :
    ymdToOrdinal (a * 400 + 1 + b * 100 + c * 4 + 3, 12, 31) =
      a * 146097 + b * 36524 + c * 1461 + 1461 := by
  have hl : isLeap (a * 400 + 1 + b * 100 + c * 4 + 3) = true := by
    rw [isLeap_cycles hb hc le_rfl]
    simpa using hleap
  simp only [ymdToOrdinal, daysBeforeYear_cycles hb hc le_rfl, hl]
  simp [daysBeforeMonth, daysBeforeMonthTable]

theorem ymdToOrdinal_ordinalToYmd {n : ℕ} (hn : 0 < n) : ymdToOrdinal (ordinalToYmd n) = n := by
  have hd1 := Nat.div_add_mod (n - 1) 146097
  have hd2 := Nat.div_add_mod ((n - 1) % 146097) 36524
  have hd3 := Nat.div_add_mod ((n - 1) % 146097 % 36524) 1461
  have hd4 := Nat.div_add_mod ((n - 1) % 146097 % 36524 % 1461) 365
  have hm1 := Nat.mod_lt (n - 1) (show 146097 > 0 by norm_num)
  have hm2 := Nat.mod_lt ((n - 1) % 146097) (show 36524 > 0 by norm_num)
  have hm3 := Nat.mod_lt ((n - 1) % 146097 % 36524) (show 1461 > 0 by norm_num)
  have hm4 := Nat.mod_lt ((n - 1) % 146097 % 36524 % 1461) (show 365 > 0 by norm_num)
  simp only [ordinalToYmd]
  generalize (n - 1) % 146097 % 36524 % 1461 % 365 = r4 at *
  generalize (n - 1) % 146097 % 36524 % 1461 / 365 = e at *
  generalize (n - 1) % 146097 % 36524 % 1461 = r3 at *
  generalize (n - 1) % 146097 % 36524 / 1461 = c at *
  generalize (n - 1) % 146097 % 36524 = r2 at *
  generalize (n - 1) % 146097 / 36524 = b at *
  generalize (n - 1) % 146097 = r1 at *
  generalize (n - 1) / 146097 = a at *
  split_ifs with hend
  · rcases Nat.lt_or_ge b 4 with hb | hb
    · obtain rfl : e = 4 := by omega
      have hyear : a * 400 + 1 + b * 100 + c * 4 + 4 - 1 = a * 400 + 1 + b * 100 + c * 4 + 3 := by omega
      rw [hyear, ymdToOrdinal_cycle_end (by omega) (by omega) (by omega)]
      omega
    · obtain ⟨rfl, rfl, rfl⟩ : b = 4 ∧ c = 0 ∧ e = 0 := by omega
      have hyear : a * 400 + 1 + 4 * 100 + 0 * 4 + 0 - 1 = a * 400 + 1 + 3 * 100 + 24 * 4 + 3 := by omega
      rw [hyear, ymdToOrdinal_cycle_end (b := 3) (c := 24) (by omega) (by omega) (by omega)]
      omega
  · have hb : b ≤ 3 := by omega
    have hc : c ≤ 24 := by omega
    have he : e ≤ 3 := by omega
    have hmd := (monthDay_spec (e == 3 && (c != 24 || b == 3)) r4 hm4).1
    simp only [ymdToOrdinal, daysBeforeYear_cycles hb hc he, isLeap_cycles hb hc he]
    omega

theorem ordinalToYmd_bounds {n : ℕ} (hn : n ≤ 3652059) :
    (ordinalToYmd n).1 < 10 ^ 4 ∧ (ordinalToYmd n).2.1 < 10 ^ 2 ∧ (ordinalToYmd n).2.2 < 10 ^ 2 := by
  have hmd := monthDay_spec
    ((n - 1) % 146097 % 36524 % 1461 / 365 == 3 &&
      ((n - 1) % 146097 % 36524 / 1461 != 24 || (n - 1) % 146097 / 36524 == 3))
    ((n - 1) % 146097 % 36524 % 1461 % 365) (Nat.mod_lt _ (by norm_num))
  simp only [ordinalToYmd]
  split_ifs with hend
  · exact ⟨by omega, by norm_num, by norm_num⟩
  · refine ⟨by omega, ?_, ?_⟩
    · change (monthDay _ _).1 < _; omega
    · change (monthDay _ _).2 < _; omega

/-- `YYYY-MM-DD`. -/
def dateChars (ordinal : ℕ) : List Char :=
  Digits.fixed 10 4 (ordinalToYmd ordinal).1 ++
    '-' :: (Digits.fixed 10 2 (ordinalToYmd ordinal).2.1 ++
      '-' :: Digits.fixed 10 2 (ordinalToYmd ordinal).2.2)

theorem dateChars_append_inj {n m : ℕ} {r r' : List Char} (hn : 0 < n) (hn' : n ≤ 3652059)
    (hm : 0 < m) (hm' : m ≤ 3652059) (h : dateChars n ++ r = dateChars m ++ r') :
    n = m ∧ r = r' := by
  obtain ⟨hy, hmo, hd⟩ := ordinalToYmd_bounds hn'
  obtain ⟨hy', hmo', hd'⟩ := ordinalToYmd_bounds hm'
  simp only [dateChars, List.append_assoc, List.cons_append] at h
  obtain ⟨ey, h⟩ := Digits.fixed_append_inj (by norm_num) (by norm_num) hy hy' h
  obtain ⟨em, h⟩ := Digits.fixed_append_inj (by norm_num) (by norm_num) hmo hmo' (List.cons.inj h).2
  obtain ⟨ed, h⟩ := Digits.fixed_append_inj (by norm_num) (by norm_num) hd hd' (List.cons.inj h).2
  refine ⟨?_, h⟩
  rw [← ymdToOrdinal_ordinalToYmd hn, ← ymdToOrdinal_ordinalToYmd hm]
  exact congrArg ymdToOrdinal (Prod.ext ey (Prod.ext em ed))

def dayMicros : ℕ := 86400000000

/-- `YYYY-MM-DDTHH:MM:SS.ffffffZ` of an instant in microseconds since the start of year 1. -/
def instantChars (t : ℕ) : List Char :=
  dateChars (t / dayMicros + 1) ++
    'T' :: (Digits.fixed 10 2 (t % dayMicros / 3600000000) ++
      ':' :: (Digits.fixed 10 2 (t % dayMicros / 60000000 % 60) ++
        ':' :: (Digits.fixed 10 2 (t % dayMicros / 1000000 % 60) ++
          '.' :: (Digits.fixed 10 6 (t % dayMicros % 1000000) ++ ['Z']))))

/-- The number of representable instants: years 1 to 9999. -/
def maxInstant : ℕ := 3652059 * dayMicros

theorem instantChars_inj {t u : ℕ} (ht : t < maxInstant) (hu : u < maxInstant)
    (h : instantChars t = instantChars u) : t = u := by
  have h10 : (0 : ℕ) < 10 := by norm_num
  have h16 : 10 ≤ 16 := by norm_num
  simp only [maxInstant, dayMicros] at ht hu
  simp only [instantChars, dayMicros] at h
  obtain ⟨hday, h⟩ := dateChars_append_inj (by omega) (by omega) (by omega) (by omega) h
  obtain ⟨hh, h⟩ := Digits.fixed_append_inj h10 h16 (by omega) (by omega) (List.cons.inj h).2
  obtain ⟨hmi, h⟩ := Digits.fixed_append_inj h10 h16 (by omega) (by omega) (List.cons.inj h).2
  obtain ⟨hs, h⟩ := Digits.fixed_append_inj h10 h16 (by omega) (by omega) (List.cons.inj h).2
  obtain ⟨hus, -⟩ := Digits.fixed_append_inj h10 h16 (by omega) (by omega) (List.cons.inj h).2
  omega

/-- A timestamp with an optional UTC offset, in microseconds. A value without an offset is read
as UTC. Its instant lies in the years 1 to 9999, so that converting it to UTC never overflows. -/
structure DateTime where
  instant : ℕ
  offset : Option ℤ
  inRange : instant < maxInstant
deriving DecidableEq, Repr

def DateTime.first : DateTime := ⟨0, none, by decide⟩

/-- The day ordinal of the wall clock at the timestamp's own offset. -/
def DateTime.date (t : DateTime) : ℤ := (t.instant + t.offset.getD 0) / dayMicros + 1

/-- ISO text in UTC with microseconds and the suffix `Z`. -/
def DateTime.utcText (t : DateTime) : String := String.ofList (instantChars t.instant)

theorem DateTime.utcText_inj {t u : DateTime} (h : t.utcText = u.utcText) : t.instant = u.instant :=
  instantChars_inj t.inRange u.inRange (String.ofList_injective h)

/-- A timestamp as it is sent: a wall clock in the years 1 to 9999 and, where there is one, an offset of less than a
day. Its instant may lie outside these years. -/
structure SentDateTime where
  wall : ℕ
  offset : Option ℤ
  inRange : wall < maxInstant
  offset_lt : ∀ o ∈ offset, |o| < dayMicros
deriving DecidableEq, Repr

theorem utc_offset_lt : ∀ o ∈ (some 0 : Option ℤ), |o| < dayMicros := by decide

def SentDateTime.first : SentDateTime := ⟨0, some 0, by decide, utc_offset_lt⟩

/-- A timestamp without an offset is read as UTC. -/
def SentDateTime.instant (t : SentDateTime) : ℤ := t.wall - t.offset.getD 0

/-- `astimezone(UTC)`; none is an `OverflowError`. -/
def SentDateTime.toUtc (t : SentDateTime) : Option DateTime :=
  if h : 0 ≤ t.instant ∧ t.instant < maxInstant then some ⟨t.instant.toNat, t.offset, by omega⟩ else none

theorem SentDateTime.toUtc_eq_some {t : SentDateTime} {u : DateTime} (h : t.toUtc = some u) :
    (u.instant : ℤ) = t.instant := by
  unfold SentDateTime.toUtc at h
  split_ifs at h with hrange
  obtain rfl := Option.some.inj h
  exact Int.toNat_of_nonneg hrange.1

theorem SentDateTime.toUtc_isSome {t : SentDateTime} :
    t.toUtc.isSome = true ↔ 0 ≤ t.instant ∧ t.instant < maxInstant := by
  unfold SentDateTime.toUtc
  split_ifs with h <;> simp [h]

/-- A day between 1 January of year 1 and 31 December 9999. -/
structure Date where
  ordinal : ℕ
  pos : 0 < ordinal
  le_max : ordinal ≤ 3652059
deriving DecidableEq, Repr

def Date.text (d : Date) : String := String.ofList (dateChars d.ordinal)

example : ordinalToYmd 738000 = (2021, 7, 29) := by decide

end Calendar
