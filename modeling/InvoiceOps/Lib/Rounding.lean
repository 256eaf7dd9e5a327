import InvoiceOps.Lib.Decimal
import InvoiceOps.Lib.HalfEven

/-! Decimals rounded to a number of digits. What number comes out depends on the number that goes in only, whatever
zeros it is written with, so an operation in a context of limited precision is exact as long as its exact result
fits. -/

namespace Decimal

variable {prec : ℕ} {d : Decimal}

theorem roundHalfEven_of_lt (hprec : 0 < prec) (h : d.coeff < 10 ^ prec) : d.roundHalfEven prec = d := by
  have hlength : (Nat.toDigits 10 d.coeff).length ≤ prec :=
    (Nat.length_toDigits_le_iff (by decide) hprec).2 h
  rw [roundHalfEven]
  simp only [Nat.sub_eq_zero_of_le hlength, if_pos]

theorem abs_toRat (d : Decimal) : |d.toRat| = d.coeff * (10 : ℚ) ^ d.exp := by
  rw [toRat, abs_mul, abs_of_pos (ten_zpow_pos d.exp), int]
  cases d.neg
  · simp
  · simp

theorem fits_of_coeff_lt (h : d.coeff < 10 ^ prec) : Fits prec d.toRat := by
  refine ⟨d.int, d.exp, ?_, rfl⟩
  rw [int]
  cases d.neg
  · simpa using (by exact_mod_cast h : (d.coeff : ℤ) < 10 ^ prec)
  · simpa using (by exact_mod_cast h : (d.coeff : ℤ) < 10 ^ prec)

/-- The nearest integer to a quotient, by its remainder. -/
theorem roundInt_div (c m : ℕ) (hm : 0 < m) : roundInt ((c : ℚ) / m) =
    ((if m < 2 * (c % m) ∨ 2 * (c % m) = m ∧ c / m % 2 = 1 then c / m + 1 else c / m : ℕ) : ℤ) := by
  have hfloor : ⌊(c : ℚ) / m⌋ = ((c / m : ℕ) : ℤ) := by
    rw [Rat.floor_natCast_div_natCast]
    push_cast
    rfl
  have hfract : Int.fract ((c : ℚ) / m) = (c % m : ℕ) / m := Int.fract_div_natCast_eq_div_natCast_mod
  have hpos : (0 : ℚ) < m := by exact_mod_cast hm
  have hless : Int.fract ((c : ℚ) / m) < 1 / 2 ↔ 2 * (c % m) < m := by
    rw [hfract, div_lt_div_iff₀ hpos (by norm_num)]
    have hcast : ((c % m : ℕ) : ℚ) * 2 < 1 * m ↔ (c % m) * 2 < 1 * m := by exact_mod_cast Iff.rfl
    rw [hcast]
    omega
  have hhalf : Int.fract ((c : ℚ) / m) = 1 / 2 ↔ 2 * (c % m) = m := by
    rw [hfract, div_eq_div_iff hpos.ne' (by norm_num)]
    have hcast : ((c % m : ℕ) : ℚ) * 2 = 1 * m ↔ (c % m) * 2 = 1 * m := by exact_mod_cast Iff.rfl
    rw [hcast]
    omega
  have heven : Even ((c / m : ℕ) : ℤ) ↔ c / m % 2 = 0 := by rw [Int.even_coe_nat, Nat.even_iff]
  simp only [roundInt, hless, hhalf, hfloor, heven]
  split_ifs <;> omega

/-- Where there are more digits than are kept, their number fixes the place that is rounded at. -/
theorem quantum_of_long {k : ℕ} (hprec : 0 < prec) (hk : 0 < k) (h : (Nat.toDigits 10 d.coeff).length = prec + k) :
    quantum prec d.toRat = 10 ^ (d.exp + k) := by
  have hupper : d.coeff < 10 ^ (prec + k) := (Nat.length_toDigits_le_iff (by decide) (by omega)).1 h.le
  have hlower : 10 ^ (prec + k - 1) ≤ d.coeff := by
    by_contra hnot
    have hshort := (Nat.length_toDigits_le_iff (by decide) (show 0 < prec + k - 1 by omega)).2 (not_le.1 hnot)
    omega
  have hcast : (((10 : ℕ) ^ (prec + k - 1) : ℕ) : ℚ) = 10 ^ ((prec + k - 1 : ℕ) : ℤ) := by
    push_cast
    rw [zpow_natCast]
  have hpos : 0 < |d.toRat| := by
    rw [abs_toRat]
    have hcoeff : (0 : ℚ) < d.coeff := by exact_mod_cast (show 0 < 10 ^ (prec + k - 1) by positivity).trans_le hlower
    exact mul_pos hcoeff (ten_zpow_pos _)
  have hlog : Int.log 10 |d.toRat| = prec + k - 1 + d.exp := by
    refine le_antisymm (Int.lt_add_one_iff.1 ?_) ?_
    · refine (Int.lt_zpow_iff_log_lt (b := 10) (by norm_num) hpos).1 ?_
      rw [abs_toRat, show (prec + k - 1 + d.exp + 1 : ℤ) = ((prec + k : ℕ) : ℤ) + d.exp by push_cast; ring]
      push_cast
      rw [zpow_add₀ (by norm_num), ← Nat.cast_add, zpow_natCast]
      refine mul_lt_mul_of_pos_right ?_ (ten_zpow_pos _)
      exact_mod_cast hupper
    · refine (Int.zpow_le_iff_le_log (b := 10) (by norm_num) hpos).1 ?_
      rw [abs_toRat, show (prec + k - 1 + d.exp : ℤ) = ((prec + k - 1 : ℕ) : ℤ) + d.exp by omega]
      push_cast
      rw [zpow_add₀ (by norm_num)]
      refine mul_le_mul_of_nonneg_right ?_ (ten_zpow_pos _).le
      rw [← hcast]
      exact_mod_cast hlower
  rw [quantum, hlog]
  congr 1
  omega

/-- The number of a rounded decimal is the rounded number. -/
theorem toRat_roundHalfEven_eq (hprec : 0 < prec) : (d.roundHalfEven prec).toRat = roundRat prec d.toRat := by
  obtain ⟨k, hk⟩ : ∃ k, k = (Nat.toDigits 10 d.coeff).length - prec := ⟨_, rfl⟩
  rcases Nat.eq_zero_or_pos k with hzero | hpos
  · have hcoeff : d.coeff < 10 ^ prec := (Nat.length_toDigits_le_iff (by decide) hprec).1 (by omega)
    rw [roundHalfEven_of_lt hprec hcoeff, roundRat_of_fits (fits_of_coeff_lt hcoeff)]
  · have hlength : (Nat.toDigits 10 d.coeff).length = prec + k := by omega
    obtain ⟨n, hn⟩ : ∃ n, n = if 10 ^ k < 2 * (d.coeff % 10 ^ k) ∨ 2 * (d.coeff % 10 ^ k) = 10 ^ k ∧
        d.coeff / 10 ^ k % 2 = 1 then d.coeff / 10 ^ k + 1 else d.coeff / 10 ^ k := ⟨_, rfl⟩
    have hround : roundInt ((d.coeff : ℚ) / (10 ^ k : ℕ)) = n := by
      rw [roundInt_div _ _ (by positivity), ← hn]
    have hvalue : roundRat prec d.toRat = (if d.neg then -(n : ℤ) else n : ℤ) * (10 : ℚ) ^ (d.exp + k) := by
      have hdiv : d.toRat / 10 ^ (d.exp + k) = (if d.neg then -(1 : ℤ) else 1 : ℤ) * ((d.coeff : ℚ) / (10 ^ k : ℕ)) := by
        rw [toRat, int, zpow_add₀ (by norm_num), zpow_natCast]
        have hexp := (ten_zpow_pos d.exp).ne'
        push_cast
        cases d.neg
        · simp only [Bool.false_eq_true, if_false]
          field_simp
        · simp only [if_true]
          field_simp
      rw [roundRat, quantum_of_long hprec hpos hlength, hdiv]
      cases d.neg
      · simp only [Bool.false_eq_true, if_false, Int.cast_one, one_mul, hround]
      · simp only [if_true, Int.cast_neg, Int.cast_one, neg_one_mul, roundInt_neg, hround]
    have hshape : d.roundHalfEven prec =
        if n = 10 ^ prec then ⟨d.neg, 10 ^ (prec - 1), d.exp + k + 1⟩ else ⟨d.neg, n, d.exp + k⟩ := by
      rw [roundHalfEven]
      simp only [← hk, if_neg hpos.ne', ← hn]
    rw [hvalue, hshape]
    by_cases hcarry : n = 10 ^ prec
    · obtain ⟨p, rfl⟩ := Nat.exists_eq_succ_of_ne_zero hprec.ne'
      rw [if_pos hcarry, hcarry, toRat, int, zpow_add₀ (by norm_num) (d.exp + k), zpow_one]
      simp only [Nat.succ_eq_add_one, Nat.add_sub_cancel]
      cases d.neg
      · simp only [Bool.false_eq_true, if_false]
        push_cast
        ring
      · simp only [if_true]
        push_cast
        ring
    · rw [if_neg hcarry]
      rfl

theorem toRat_roundHalfEven (hprec : 0 < prec) (h : Fits prec d.toRat) : (d.roundHalfEven prec).toRat = d.toRat := by
  rw [toRat_roundHalfEven_eq hprec, roundRat_of_fits h]

/-- Unary minus is exact on what fits. -/
theorem toRat_minus (hprec : 0 < prec) (h : Fits prec d.toRat) : (d.minus prec).toRat = -d.toRat := by
  unfold minus
  split_ifs with hzero
  · have hd : d.toRat = 0 := by simp [toRat, int, hzero]
    have habs : d.abs.toRat = d.toRat := by rw [toRat_abs, hd, abs_zero]
    rw [toRat_roundHalfEven hprec (habs ▸ h), habs, hd, neg_zero]
  · rw [toRat_roundHalfEven hprec (by rw [toRat_neg]; exact h.neg), toRat_neg]

theorem ofInt_natCast (n : ℕ) (e : ℤ) : ofInt false n e = ⟨false, n, e⟩ := by
  have hneg : (if (n : ℤ) = 0 then false else decide ((n : ℤ) < 0)) = false := by
    split_ifs
    · rfl
    · exact decide_eq_false (by omega)
  rw [ofInt, hneg, Int.natAbs_natCast]

theorem add_unsigned (a b : ℕ) {e f : ℤ} (h : f ≤ e) :
    (⟨false, a, e⟩ + ⟨false, b, f⟩ : Decimal) = ⟨false, a * 10 ^ (e - f).toNat + b, f⟩ := by
  have hsum : (⟨false, a, e⟩ : Decimal).scaled f + (⟨false, b, f⟩ : Decimal).scaled f =
      ((a * 10 ^ (e - f).toNat + b : ℕ) : ℤ) := by
    simp only [scaled, int, Bool.false_eq_true, if_false, sub_self, Int.toNat_zero, pow_zero, mul_one]
    push_cast
    rfl
  change ofInt (false && false) (scaled (min e f) ⟨false, a, e⟩ + scaled (min e f) ⟨false, b, f⟩) (min e f) = _
  rw [min_eq_right h, hsum, Bool.false_and, ofInt_natCast]

theorem add_neg_unsigned {a b : ℕ} (e : ℤ) (h : b ≤ a) : (⟨false, a, e⟩ + ⟨true, b, e⟩ : Decimal) = ⟨false, a - b, e⟩ := by
  have hsum : (⟨false, a, e⟩ : Decimal).scaled e + (⟨true, b, e⟩ : Decimal).scaled e = ((a - b : ℕ) : ℤ) := by
    simp only [scaled, int, Bool.false_eq_true, if_false, if_true, sub_self, Int.toNat_zero, pow_zero, mul_one]
    omega
  change ofInt (false && true) (scaled (min e e) ⟨false, a, e⟩ + scaled (min e e) ⟨true, b, e⟩) (min e e) = _
  rw [min_self, hsum, Bool.false_and, ofInt_natCast]

def addIn (prec : ℕ) (a b : Decimal) : Decimal := (a + b).roundHalfEven prec

def subIn (prec : ℕ) (a b : Decimal) : Decimal := (a - b).roundHalfEven prec

def mulIn (prec : ℕ) (a b : Decimal) : Decimal := (a * b).roundHalfEven prec

theorem toRat_addIn {a b : Decimal} (hprec : 0 < prec) (h : Fits prec (a.toRat + b.toRat)) :
    (addIn prec a b).toRat = a.toRat + b.toRat := by
  rw [addIn, toRat_roundHalfEven hprec (by rwa [toRat_add]), toRat_add]

theorem toRat_subIn {a b : Decimal} (hprec : 0 < prec) (h : Fits prec (a.toRat - b.toRat)) :
    (subIn prec a b).toRat = a.toRat - b.toRat := by
  rw [subIn, toRat_roundHalfEven hprec (by rwa [toRat_sub]), toRat_sub]

theorem toRat_mulIn {a b : Decimal} (hprec : 0 < prec) (h : Fits prec (a.toRat * b.toRat)) :
    (mulIn prec a b).toRat = a.toRat * b.toRat := by
  rw [mulIn, toRat_roundHalfEven hprec (by rwa [toRat_mul]), toRat_mul]

/-- Without the zeros at the end of the coefficient, but at most so many of them. -/
def stripZeros : ℕ → Decimal → Decimal
  | 0, d => d
  | n + 1, d => if d.coeff % 10 = 0 then stripZeros n ⟨d.neg, d.coeff / 10, d.exp + 1⟩ else d

/-- The quotient in a context of `prec` digits. An exact one has the exponent nearest to the difference of the
exponents. -/
def divIn (prec : ℕ) (a b : Decimal) : Decimal :=
  if a.coeff = 0 then ⟨a.neg != b.neg, 0, a.exp - b.exp⟩
  else
    let shift : ℤ := (Nat.toDigits 10 b.coeff).length - (Nat.toDigits 10 a.coeff).length + prec + 1
    let exp := a.exp - b.exp - shift
    let dividend := a.coeff * 10 ^ shift.toNat
    let divisor := b.coeff * 10 ^ (-shift).toNat
    let q := dividend / divisor
    if dividend % divisor = 0 then (stripZeros shift.toNat ⟨a.neg != b.neg, q, exp⟩).roundHalfEven prec
    -- a digit that is neither 0 nor 5 stands for the digits cut off
    else (⟨a.neg != b.neg, if q % 5 = 0 then q + 1 else q, exp⟩ : Decimal).roundHalfEven prec

example : divIn 4 ⟨false, 200, -2⟩ ⟨false, 3, 0⟩ = ⟨false, 6667, -4⟩ := by decide

example : divIn 28 ⟨false, 2400, -2⟩ ⟨false, 10, 0⟩ = ⟨false, 240, -2⟩ := by decide

theorem toRat_stripZeros (n : ℕ) (d : Decimal) : (stripZeros n d).toRat = d.toRat := by
  induction n generalizing d with
  | zero => rfl
  | succ n ih =>
    rw [stripZeros]
    split_ifs with hzero
    · rw [ih]
      have hcoeff : (d.coeff : ℚ) = (d.coeff / 10 : ℕ) * 10 := by
        have hnat : d.coeff = d.coeff / 10 * 10 := by omega
        exact_mod_cast hnat
      simp only [toRat, int, zpow_add₀ (show (10 : ℚ) ≠ 0 by norm_num), zpow_one]
      cases d.neg
      · simp only [Bool.false_eq_true, if_false, Int.cast_natCast]
        rw [hcoeff]
        ring
      · simp only [if_true, Int.cast_neg, Int.cast_natCast]
        rw [hcoeff]
        ring
    · rfl

theorem toRat_quotient (a b : Decimal) (q : ℕ) (e : ℤ) (h : (q : ℚ) * 10 ^ e = a.coeff * 10 ^ a.exp / (b.coeff * 10 ^ b.exp)) :
    (⟨a.neg != b.neg, q, e⟩ : Decimal).toRat = a.toRat / b.toRat := by
  simp only [toRat, int]
  cases a.neg <;> cases b.neg <;>
    simp only [bne_self_eq_false, Bool.false_bne, Bool.true_bne, Bool.not_false, Bool.false_eq_true, if_true, if_false,
      Int.cast_neg, Int.cast_natCast, neg_mul, neg_div, div_neg, neg_neg, h]

/-- Division is exact on what fits. -/
theorem toRat_divIn {a b : Decimal} (hprec : 0 < prec) (hb : b.coeff ≠ 0) (h : Fits prec (a.toRat / b.toRat)) :
    (divIn prec a b).toRat = a.toRat / b.toRat := by
  by_cases ha : a.coeff = 0
  · rw [divIn, if_pos ha]
    exact toRat_quotient a b 0 _ (by simp [ha])
  set m := (Nat.toDigits 10 a.coeff).length with hm
  set n := (Nat.toDigits 10 b.coeff).length with hn
  set shift : ℤ := n - m + prec + 1 with hshift
  set exp := a.exp - b.exp - shift with hexp
  have hmpos : 0 < m := List.length_pos_iff.2 Nat.toDigits_ne_nil
  have hlower : 10 ^ (m - 1) ≤ a.coeff := by
    rcases Nat.eq_or_lt_of_le hmpos with hone | hmore
    · rw [← hone]
      exact Nat.one_le_iff_ne_zero.2 ha
    · by_contra hnot
      have hshort := (Nat.length_toDigits_le_iff (by decide) (show 0 < m - 1 by omega)).2 (not_le.1 hnot)
      omega
  have hupper : b.coeff < 10 ^ n :=
    (Nat.length_toDigits_le_iff (by decide) (List.length_pos_iff.2 Nat.toDigits_ne_nil)).1 le_rfl
  have hbpos : (0 : ℚ) < b.coeff := by exact_mod_cast Nat.pos_of_ne_zero hb
  -- the quotient with `exp` as its exponent has more than `prec` digits before the point
  obtain ⟨x, hx⟩ : ∃ x : ℚ, x = a.coeff * 10 ^ shift / b.coeff := ⟨_, rfl⟩
  have hlarge : (10 : ℚ) ^ prec < x := by
    rw [hx, lt_div_iff₀ hbpos]
    calc (10 : ℚ) ^ prec * b.coeff < 10 ^ prec * 10 ^ n := by
          have hcast : (b.coeff : ℚ) < 10 ^ n := by exact_mod_cast hupper
          exact mul_lt_mul_of_pos_left hcast (by positivity)
      _ = 10 ^ (m - 1) * (10 : ℚ) ^ shift := by
          rw [← zpow_natCast, ← zpow_natCast, ← zpow_natCast, ← zpow_add₀ (by norm_num), ← zpow_add₀ (by norm_num)]
          congr 1
          omega
      _ ≤ a.coeff * (10 : ℚ) ^ shift := by
          have hcast : (10 : ℚ) ^ (m - 1) ≤ a.coeff := by exact_mod_cast hlower
          exact mul_le_mul_of_nonneg_right hcast (ten_zpow_pos shift).le
  have hquotient : a.coeff * 10 ^ a.exp / (b.coeff * 10 ^ b.exp) = x * (10 : ℚ) ^ exp := by
    have hsplit : (10 : ℚ) ^ a.exp = 10 ^ shift * 10 ^ exp * 10 ^ b.exp := by
      rw [← zpow_add₀ (by norm_num), ← zpow_add₀ (by norm_num)]
      congr 1
      omega
    have hbexp := (ten_zpow_pos b.exp).ne'
    rw [hx, hsplit]
    field_simp
  -- so it is an integer when its number fits
  obtain ⟨q, hq⟩ : ∃ q : ℕ, x = q := by
    obtain ⟨c, e, hc, heq⟩ := h
    have habs : x * (10 : ℚ) ^ exp = |(c : ℚ)| * 10 ^ e := by
      have hboth := congrArg abs heq
      rwa [abs_div, abs_toRat, abs_toRat, hquotient, abs_mul, abs_of_pos (ten_zpow_pos e)] at hboth
    have hcast : |(c : ℚ)| < 10 ^ prec := by exact_mod_cast hc
    have hlt : exp < e := by
      by_contra hnot
      have hpow : (10 : ℚ) ^ e ≤ 10 ^ exp := zpow_le_zpow_right₀ (by norm_num) (not_lt.1 hnot)
      have hle : x * (10 : ℚ) ^ exp ≤ |(c : ℚ)| * 10 ^ exp := by
        rw [habs]
        exact mul_le_mul_of_nonneg_left hpow (abs_nonneg _)
      exact absurd (le_of_mul_le_mul_right hle (ten_zpow_pos exp)) (not_le.2 (hcast.trans hlarge))
    obtain ⟨t, ht⟩ := Int.eq_ofNat_of_zero_le (sub_nonneg.2 hlt.le)
    have he : e = t + exp := by omega
    refine ⟨c.natAbs * 10 ^ t, ?_⟩
    rw [he, zpow_add₀ (by norm_num), zpow_natCast, ← mul_assoc, mul_left_inj' (ten_zpow_pos exp).ne'] at habs
    rw [habs]
    push_cast [Nat.cast_natAbs]
    rfl
  have hdivides : a.coeff * 10 ^ shift.toNat = q * (b.coeff * 10 ^ (-shift).toNat) := by
    have hnat : (a.coeff : ℚ) * 10 ^ shift.toNat = q * (b.coeff * 10 ^ (-shift).toNat) := by
      have hpow : (10 : ℚ) ^ shift.toNat = 10 ^ shift * 10 ^ (-shift).toNat := by
        rw [← zpow_natCast, ← zpow_natCast, ← zpow_add₀ (by norm_num)]
        congr 1
        omega
      rw [← hq, hx, hpow]
      field_simp
    exact_mod_cast hnat
  have hpos : 0 < b.coeff * 10 ^ (-shift).toNat := Nat.mul_pos (Nat.pos_of_ne_zero hb) (by positivity)
  have hvalue : (stripZeros shift.toNat ⟨a.neg != b.neg, q, exp⟩).toRat = a.toRat / b.toRat := by
    rw [toRat_stripZeros]
    exact toRat_quotient a b q exp (by rw [hquotient, hq])
  rw [divIn, if_neg ha]
  simp only [← hm, ← hn, ← hshift, ← hexp]
  rw [hdivides, Nat.mul_mod_left, if_pos rfl, Nat.mul_div_cancel _ hpos, toRat_roundHalfEven hprec (hvalue ▸ h), hvalue]

end Decimal
