import InvoiceOps.Lib.Calendar

/-! ISO texts of days and timestamps as they are put into JSON and read from it. A text is read as the
day its digits name, if that day has this text. A timestamp is printed on its own wall clock, with `Z` for
UTC, so that one instant has many texts. -/

namespace Digits

theorem isDigit_fixed {w n : ℕ} {c : Char} (h : c ∈ fixed 10 w n) : c.isDigit = true := by
  induction w generalizing n with
  | zero => simp [fixed] at h
  | succ w ih =>
    rcases List.mem_append.1 h with h | h
    · exact ih h
    · obtain rfl := List.mem_singleton.1 h
      have hall : ∀ m < 10, (Nat.digitChar m).isDigit = true := by decide
      exact hall _ (Nat.mod_lt _ (by norm_num))

theorem ofDigitChars_fixed {w n : ℕ} (h : n < 10 ^ w) : Nat.ofDigitChars 10 (fixed 10 w n) 0 = n := by
  induction w generalizing n with
  | zero =>
    have h0 : n = 0 := by simpa using h
    rw [h0]
    rfl
  | succ w ih =>
    have hdigit : ∀ m < 10, (Nat.digitChar m).toNat - '0'.toNat = m := by decide
    have hlt : n / 10 < 10 ^ w := by
      rw [Nat.div_lt_iff_lt_mul (by norm_num), ← pow_succ]
      exact h
    rw [fixed, Nat.ofDigitChars_append, ih hlt]
    simp only [Nat.ofDigitChars_cons, Nat.ofDigitChars_nil, hdigit _ (Nat.mod_lt n (by norm_num : 0 < 10))]
    omega

theorem getLast?_fixed (b w n : ℕ) : (fixed b (w + 1) n).getLast? = some (Nat.digitChar (n % b)) := by
  rw [fixed, List.getLast?_concat]

end Digits

namespace Calendar

/-- The number in the characters from `i` to `j` of a text. -/
def field (cs : List Char) (i j : ℕ) : ℕ := Nat.ofDigitChars 10 ((cs.drop i).take (j - i)) 0

theorem field_fixed {pre rest : List Char} {i w n : ℕ} (hi : pre.length = i) (hn : n < 10 ^ w) :
    field (pre ++ (Digits.fixed 10 w n ++ rest)) i (i + w) = n := by
  have hdrop : (pre ++ (Digits.fixed 10 w n ++ rest)).drop i = Digits.fixed 10 w n ++ rest := by
    rw [← hi, List.drop_left]
  have htake : (Digits.fixed 10 w n ++ rest).take (i + w - i) = Digits.fixed 10 w n := by
    rw [Nat.add_sub_cancel_left]
    exact List.take_left' (Digits.length_fixed 10 w n)
  rw [field, hdrop, htake, Digits.ofDigitChars_fixed hn]

/-- The day a text `YYYY-MM-DD` names. -/
def Date.ofText (s : String) : Option Date :=
  let n := ymdToOrdinal (field s.toList 0 4, field s.toList 5 7, field s.toList 8 10)
  if h : (0 < n ∧ n ≤ 3652059) ∧ dateChars n = s.toList then some ⟨n, h.1.1, h.1.2⟩ else none

theorem length_dateChars (n : ℕ) : (dateChars n).length = 10 := by simp [dateChars]

theorem Date.ofText_eq_some {s : String} {d : Date} : Date.ofText s = some d ↔ s = d.text := by
  constructor
  · intro h
    unfold Date.ofText at h
    simp only at h
    split_ifs at h with hok
    obtain rfl := Option.some.inj h
    rw [Date.text, hok.2, String.ofList_toList]
  · rintro rfl
    obtain ⟨hy, hm, hd⟩ := ordinalToYmd_bounds d.le_max
    have hordinal := ymdToOrdinal_ordinalToYmd d.pos
    have hyear : field (dateChars d.ordinal) 0 4 = (ordinalToYmd d.ordinal).1 := @field_fixed [] _ 0 4 _ rfl hy
    have hmonth : field (dateChars d.ordinal) 5 7 = (ordinalToYmd d.ordinal).2.1 := by
      rw [dateChars, List.append_cons]
      exact field_fixed (by simp) hm
    have hday : field (dateChars d.ordinal) 8 10 = (ordinalToYmd d.ordinal).2.2 := by
      rw [dateChars, List.append_cons, ← List.append_assoc, List.append_cons,
        ← List.append_nil (Digits.fixed 10 2 (ordinalToYmd d.ordinal).2.2)]
      exact field_fixed (by simp) hd
    unfold Date.ofText
    simp only [Date.text, String.toList_ofList, hyear, hmonth, hday, Prod.mk.eta, hordinal, d.pos, d.le_max, and_self, dite_true]

theorem Date.text_inj {d e : Date} (h : d.text = e.text) : d = e := by
  have hread : Date.ofText e.text = some e := Date.ofText_eq_some.2 rfl
  rw [← h, Date.ofText_eq_some.2 rfl] at hread
  exact Option.some.inj hread

/-- The zone of a text: nothing for a timestamp without one. -/
def zoneChars : Option ℤ → List Char
  | none => []
  | some o =>
    if o = 0 then ['Z']
    else (if o < 0 then '-' else '+') :: (Digits.fixed 10 2 (o.natAbs / 3600000000) ++
      ':' :: Digits.fixed 10 2 (o.natAbs / 60000000 % 60))

/-- The wall clock of a timestamp, in microseconds. -/
def DateTime.wall (t : DateTime) : ℕ := (t.instant + t.offset.getD 0).toNat

/-- `YYYY-MM-DDTHH:MM:SS` and microseconds when there are any. -/
def clockChars (wall : ℕ) : List Char :=
  dateChars (wall / dayMicros + 1) ++
    'T' :: (Digits.fixed 10 2 (wall % dayMicros / 3600000000) ++
      ':' :: (Digits.fixed 10 2 (wall % dayMicros / 60000000 % 60) ++
        ':' :: (Digits.fixed 10 2 (wall % dayMicros / 1000000 % 60) ++
          if wall % 1000000 = 0 then [] else '.' :: Digits.fixed 10 6 (wall % 1000000))))

/-- The text of a timestamp on its own wall clock. -/
def SentDateTime.isoChars (t : SentDateTime) : List Char := clockChars t.wall ++ zoneChars t.offset

def SentDateTime.isoText (t : SentDateTime) : String := String.ofList t.isoChars

/-- The timestamp a text `YYYY-MM-DDTHH:MM:SSZ` names. -/
def SentDateTime.ofUtcText (s : String) : Option SentDateTime :=
  let cs := s.toList
  let day := ymdToOrdinal (field cs 0 4, field cs 5 7, field cs 8 10) - 1
  let t := day * dayMicros + (field cs 11 13 * 3600 + field cs 14 16 * 60 + field cs 17 19) * 1000000
  if h : t < maxInstant then
    let u : SentDateTime := ⟨t, some 0, h, utc_offset_lt⟩
    if u.isoText = s then some u else none
  else none

theorem SentDateTime.ofUtcText_spec {s : String} {t : SentDateTime} (h : SentDateTime.ofUtcText s = some t) :
    t.isoText = s ∧ t.offset = some 0 := by
  unfold SentDateTime.ofUtcText at h
  simp only at h
  split_ifs at h with hmax htext
  obtain rfl := Option.some.inj h
  exact ⟨htext, rfl⟩

/-- Midnight of a day in UTC, as it is written after the day. -/
def midnightUtc : List Char := "T00:00:00Z".toList

theorem getLast?_clockChars (wall : ℕ) : ∃ c, (clockChars wall).getLast? = some c ∧ c.isDigit = true := by
  have hdigit : ∀ n, (Nat.digitChar (n % 10)).isDigit = true := by
    intro n
    have hall : ∀ m < 10, (Nat.digitChar m).isDigit = true := by decide
    exact hall _ (Nat.mod_lt _ (by norm_num))
  unfold clockChars
  split_ifs with h
  · refine ⟨_, ?_, hdigit (wall % dayMicros / 1000000)⟩
    simp [List.getLast?_append, List.getLast?_cons, Digits.getLast?_fixed]
  · refine ⟨_, ?_, hdigit wall⟩
    simp [List.getLast?_append, List.getLast?_cons, Digits.getLast?_fixed]

/-- A text that ends in `Z` is one in UTC. -/
theorem SentDateTime.offset_of_getLast? {t : SentDateTime} (h : t.isoChars.getLast? = some 'Z') : t.offset = some 0 := by
  have hZ : 'Z'.isDigit = false := by decide
  rw [SentDateTime.isoChars, List.getLast?_append] at h
  cases ho : t.offset with
  | none =>
    obtain ⟨c, hc, hdigit⟩ := getLast?_clockChars t.wall
    rw [ho, zoneChars, hc] at h
    obtain rfl : c = 'Z' := by simpa using h
    rw [hZ] at hdigit
    cases hdigit
  | some o =>
    rw [ho, zoneChars] at h
    split_ifs at h with h0
    · rw [h0]
    all_goals
      have hlast : Nat.digitChar (o.natAbs / 60000000 % 60 % 10) = 'Z' := by
        simp only [List.getLast?_cons, List.getLast?_append, Digits.getLast?_fixed] at h
        exact Option.some.inj h
      have hall : ∀ m < 10, Nat.digitChar m ≠ 'Z' := by decide
      exact absurd hlast (hall _ (Nat.mod_lt _ (by norm_num)))

def Date.midnight (d : Date) : ℕ := (d.ordinal - 1) * dayMicros

theorem Date.midnight_div (d : Date) : d.midnight / dayMicros + 1 = d.ordinal ∧ d.midnight % dayMicros = 0 := by
  have hpos := d.pos
  unfold Date.midnight dayMicros
  omega

theorem SentDateTime.isoText_midnight {d : Date} {t : SentDateTime} :
    t.isoText = String.ofList (dateChars d.ordinal ++ midnightUtc) ↔ t.offset = some 0 ∧ t.wall = d.midnight := by
  have hday := d.midnight_div
  have hzero : d.midnight % 1000000 = 0 := by
    have h := hday.2
    unfold dayMicros at h
    omega
  constructor
  · intro h
    have hchars : t.isoChars = dateChars d.ordinal ++ midnightUtc := String.ofList_injective h
    have hoffset : t.offset = some 0 := by
      refine SentDateTime.offset_of_getLast? ?_
      rw [hchars, List.getLast?_append]
      rfl
    refine ⟨hoffset, ?_⟩
    have hlt := t.inRange
    have hle := d.le_max
    simp only [maxInstant, dayMicros] at hlt
    rw [SentDateTime.isoChars, hoffset, clockChars, List.append_assoc] at hchars
    obtain ⟨hord, hrest⟩ := dateChars_append_inj (Nat.succ_pos _) (by unfold dayMicros; omega) d.pos hle hchars
    have hmid : midnightUtc = 'T' :: (Digits.fixed 10 2 0 ++ ':' :: (Digits.fixed 10 2 0 ++
        ':' :: (Digits.fixed 10 2 0 ++ ['Z']))) := by decide
    rw [hmid] at hrest
    simp only [List.cons_append, List.append_assoc] at hrest
    have h10 : (0 : ℕ) < 10 := by norm_num
    have h16 : 10 ≤ 16 := by norm_num
    have hpos : (0 : ℕ) < 10 ^ 2 := by norm_num
    unfold dayMicros at hord hrest
    obtain ⟨hh, hrest⟩ := Digits.fixed_append_inj h10 h16 (by omega) hpos (List.cons.inj hrest).2
    obtain ⟨hm, hrest⟩ := Digits.fixed_append_inj h10 h16 (by omega) hpos (List.cons.inj hrest).2
    obtain ⟨hs, hrest⟩ := Digits.fixed_append_inj h10 h16 (by omega) hpos (List.cons.inj hrest).2
    have hmicros : t.wall % 1000000 = 0 := by
      by_contra hne
      rw [if_neg hne] at hrest
      exact absurd (List.cons.inj hrest).1 (by decide)
    unfold Date.midnight dayMicros
    omega
  · rintro ⟨hoffset, hwall⟩
    rw [SentDateTime.isoText, SentDateTime.isoChars, hwall, hoffset, clockChars, hday.1, hday.2, if_pos hzero]
    congr 1

end Calendar
