import InvoiceOps.Lib.Iso

/-! The text `isoformat` prints for a timestamp, on its own wall clock and with its offset written out, and
`fromisoformat`, which reads it back. -/

namespace Calendar

/-- The values of a timestamp: its wall clock is one of the years 1 to 9999 and its offset less than a day. -/
def DateTime.OnClock (t : DateTime) : Prop :=
  0 ≤ t.instant + t.offset.getD 0 ∧ t.instant + t.offset.getD 0 < maxInstant ∧ (t.offset.getD 0).natAbs < dayMicros

instance (t : DateTime) : Decidable t.OnClock := inferInstanceAs (Decidable (_ ∧ _))

def offsetChars (m : ℕ) : List Char :=
  Digits.fixed 10 2 (m / 3600000000) ++ ':' :: (Digits.fixed 10 2 (m / 60000000 % 60) ++
    if m % 60000000 = 0 then []
    else ':' :: (Digits.fixed 10 2 (m / 1000000 % 60) ++
      if m % 1000000 = 0 then [] else '.' :: Digits.fixed 10 6 (m % 1000000)))

/-- The offset as it follows the wall clock. -/
def zoneText : Option ℤ → List Char
  | none => []
  | some o => (if o < 0 then '-' else '+') :: offsetChars o.natAbs

def DateTime.isoformat (t : DateTime) : List Char := clockChars t.wall ++ zoneText t.offset

/-- The number in the first `w` characters, and what follows them. -/
def readFixed (w : ℕ) (cs : List Char) : ℕ × List Char := (Nat.ofDigitChars 10 (cs.take w) 0, cs.drop w)

/-- The seconds and microseconds after a separator, when they are written. -/
def readMicros (cs : List Char) : ℕ × List Char :=
  if cs.head? = some '.' then readFixed 6 (cs.drop 1) else (0, cs)

def readSeconds (cs : List Char) : ℕ × List Char :=
  let seconds := readFixed 2 cs
  let micros := readMicros seconds.2
  (seconds.1 * 1000000 + micros.1, micros.2)

/-- The microseconds of `HH:MM`, with its seconds when `always` or when they are written. -/
def readTime (always : Bool) (cs : List Char) : ℕ × List Char :=
  let hours := readFixed 2 cs
  let minutes := readFixed 2 (hours.2.drop 1)
  let seconds := if always || minutes.2.head? = some ':' then readSeconds (minutes.2.drop 1) else (0, minutes.2)
  (hours.1 * 3600000000 + minutes.1 * 60000000 + seconds.1, seconds.2)

def readOffset : List Char → Option ℤ
  | [] => none
  | c :: cs => some (if c = '-' then -((readTime false cs).1 : ℤ) else (readTime false cs).1)

/-- `fromisoformat`, of the texts that `isoformat` prints. -/
def DateTime.fromisoformat (cs : List Char) : Option DateTime :=
  let year := readFixed 4 cs
  let month := readFixed 2 (year.2.drop 1)
  let day := readFixed 2 (month.2.drop 1)
  let time := readTime true (day.2.drop 1)
  let offset := readOffset time.2
  let wall := (ymdToOrdinal (year.1, month.1, day.1) - 1) * dayMicros + time.1
  let instant := ((wall : ℤ) - offset.getD 0).toNat
  if h : instant < maxInstant then
    let t : DateTime := ⟨instant, offset, h⟩
    if t.isoformat = cs then some t else none
  else none

theorem readFixed_fixed {w n : ℕ} {r : List Char} (h : n < 10 ^ w) :
    readFixed w (Digits.fixed 10 w n ++ r) = (n, r) := by
  rw [readFixed, List.take_left' (Digits.length_fixed 10 w n), List.drop_left' (Digits.length_fixed 10 w n),
    Digits.ofDigitChars_fixed h]

theorem readMicros_fraction {m : ℕ} {r : List Char} (hr : r.head? ≠ some '.') :
    readMicros ((if m % 1000000 = 0 then [] else '.' :: Digits.fixed 10 6 (m % 1000000)) ++ r) = (m % 1000000, r) := by
  unfold readMicros
  split_ifs with h0 hdot hdot
  · exact absurd hdot hr
  · rw [h0]
    rfl
  · exact readFixed_fixed (Nat.mod_lt _ (by norm_num))
  · exact absurd rfl hdot

theorem readSeconds_fraction {m : ℕ} {r : List Char} (hr : r.head? ≠ some '.') :
    readSeconds (Digits.fixed 10 2 (m / 1000000 % 60) ++
      ((if m % 1000000 = 0 then [] else '.' :: Digits.fixed 10 6 (m % 1000000)) ++ r)) = (m % 60000000, r) := by
  unfold readSeconds
  simp only [readFixed_fixed (show m / 1000000 % 60 < 10 ^ 2 by omega), readMicros_fraction hr, Prod.mk.injEq, and_true]
  omega

/-- The time of day of a wall clock is read back. -/
theorem readTime_clock {m : ℕ} {r : List Char} (hm : m < dayMicros) (hr : r.head? ≠ some '.') :
    readTime true (Digits.fixed 10 2 (m / 3600000000) ++ ':' :: (Digits.fixed 10 2 (m / 60000000 % 60) ++
      ':' :: (Digits.fixed 10 2 (m / 1000000 % 60) ++
        ((if m % 1000000 = 0 then [] else '.' :: Digits.fixed 10 6 (m % 1000000)) ++ r)))) = (m, r) := by
  unfold dayMicros at hm
  unfold readTime
  simp only [readFixed_fixed (show m / 3600000000 < 10 ^ 2 by omega), List.drop_one, List.tail_cons,
    readFixed_fixed (show m / 60000000 % 60 < 10 ^ 2 by omega), Bool.true_or, if_true, readSeconds_fraction hr,
    Prod.mk.injEq, and_true]
  omega

theorem readTime_offsetChars {m : ℕ} (hm : m < dayMicros) : (readTime false (offsetChars m)).1 = m := by
  unfold dayMicros at hm
  unfold readTime offsetChars
  simp only [readFixed_fixed (show m / 3600000000 < 10 ^ 2 by omega), List.drop_one, List.tail_cons,
    readFixed_fixed (show m / 60000000 % 60 < 10 ^ 2 by omega), Bool.false_or, decide_eq_true_eq]
  by_cases h0 : m % 60000000 = 0
  · simp only [if_pos h0, List.head?_nil, reduceCtorEq, if_false]
    omega
  · have hread := @readSeconds_fraction m [] (by simp)
    rw [List.append_nil] at hread
    simp only [if_neg h0, List.head?_cons, if_true, List.tail_cons, hread]
    omega

theorem readOffset_zoneText {offset : Option ℤ} (h : (offset.getD 0).natAbs < dayMicros) :
    readOffset (zoneText offset) = offset := by
  cases offset with
  | none => rfl
  | some o =>
    have hread : (readTime false (offsetChars o.natAbs)).1 = o.natAbs := readTime_offsetChars h
    rw [zoneText]
    by_cases hneg : o < 0
    · rw [if_pos hneg, readOffset, if_pos rfl, hread, Option.some.injEq]
      omega
    · rw [if_neg hneg, readOffset, if_neg (by decide), hread, Option.some.injEq]
      omega

theorem head?_zoneText (offset : Option ℤ) : (zoneText offset).head? ≠ some '.' := by
  cases offset with
  | none => simp [zoneText]
  | some o => by_cases hneg : o < 0 <;> simp [zoneText, hneg]

/-- A timestamp is read back from its text. -/
theorem DateTime.fromisoformat_isoformat {t : DateTime} (h : t.OnClock) : fromisoformat t.isoformat = some t := by
  have hwall : (t.wall : ℤ) = t.instant + t.offset.getD 0 := Int.toNat_of_nonneg h.1
  have hmax : t.wall / dayMicros + 1 ≤ 3652059 := by
    have hlt := h.2.1
    unfold maxInstant at hlt
    unfold dayMicros at hlt ⊢
    omega
  obtain ⟨hy, hm, hd⟩ := ordinalToYmd_bounds hmax
  have hmicros : t.wall % dayMicros % 1000000 = t.wall % 1000000 := by
    unfold dayMicros
    omega
  have htime := readTime_clock (Nat.mod_lt t.wall (show 0 < dayMicros by decide)) (head?_zoneText t.offset)
  rw [hmicros] at htime
  have hordinal : ymdToOrdinal ((ordinalToYmd (t.wall / dayMicros + 1)).1, (ordinalToYmd (t.wall / dayMicros + 1)).2.1,
      (ordinalToYmd (t.wall / dayMicros + 1)).2.2) = t.wall / dayMicros + 1 := ymdToOrdinal_ordinalToYmd (Nat.succ_pos _)
  have hinstant : (((t.wall / dayMicros + 1 - 1) * dayMicros + t.wall % dayMicros : ℕ) - t.offset.getD 0 : ℤ).toNat =
      t.instant := by
    rw [Nat.add_sub_cancel, mul_comm, Nat.div_add_mod, hwall]
    omega
  have hread : ∀ cs, cs = t.isoformat → fromisoformat cs = some t := by
    intro cs hcs
    have hsplit := hcs
    simp only [isoformat, clockChars, dateChars, List.append_assoc, List.cons_append] at hsplit
    unfold fromisoformat
    rw [hsplit]
    simp only [readFixed_fixed hy, readFixed_fixed hm, readFixed_fixed hd, List.drop_one, List.tail_cons, htime,
      readOffset_zoneText h.2.2, hordinal, hinstant, t.inRange, dite_true]
    exact if_pos (hcs.symm.trans hsplit)
  exact hread _ rfl

end Calendar
