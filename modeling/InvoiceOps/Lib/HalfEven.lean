import Mathlib.Data.Int.Log
import Mathlib.Data.Rat.Floor
import Mathlib.Tactic

/-! Rational numbers rounded to a number of significant decimal digits, half-way cases to the even digit. Rounding keeps
the order, gives a number of so few digits, and leaves such a number as it is. -/

namespace Decimal

/-- The number has at most `prec` significant digits. -/
def Fits (prec : ℕ) (x : ℚ) : Prop := ∃ c e : ℤ, |c| < 10 ^ prec ∧ x = c * (10 : ℚ) ^ e

/-- The nearest integer, of two as near the even one. -/
def roundInt (x : ℚ) : ℤ := if Int.fract x < 1 / 2 ∨ Int.fract x = 1 / 2 ∧ Even ⌊x⌋ then ⌊x⌋ else ⌊x⌋ + 1

/-- The place value of the last digit kept. -/
def quantum (prec : ℕ) (x : ℚ) : ℚ := 10 ^ (Int.log 10 |x| + 1 - prec)

def roundRat (prec : ℕ) (x : ℚ) : ℚ := roundInt (x / quantum prec x) * quantum prec x

theorem Fits.neg {prec : ℕ} {x : ℚ} (h : Fits prec x) : Fits prec (-x) := by
  obtain ⟨c, e, hc, rfl⟩ := h
  exact ⟨-c, e, by rwa [abs_neg], by push_cast; ring⟩

theorem zpow_ten_pos (e : ℤ) : (0 : ℚ) < 10 ^ e := zpow_pos (by norm_num) e

@[simp] theorem roundInt_intCast (n : ℤ) : roundInt n = n := by simp [roundInt]

theorem abs_roundInt_sub_le (x : ℚ) : |(roundInt x : ℚ) - x| ≤ 1 / 2 := by
  have hsum := Int.floor_add_fract x
  have hnonneg := Int.fract_nonneg x
  have hlt := Int.fract_lt_one x
  rw [abs_le]
  unfold roundInt
  split_ifs with h
  · have hle : Int.fract x ≤ 1 / 2 := h.elim le_of_lt fun heq => heq.1.le
    constructor <;> linarith
  · have hge : 1 / 2 ≤ Int.fract x := not_lt.1 fun hless => h (.inl hless)
    push_cast
    constructor <;> linarith

theorem roundInt_mono {x y : ℚ} (h : x ≤ y) : roundInt x ≤ roundInt y := by
  rcases h.eq_or_lt with rfl | hlt
  · rfl
  · by_contra hnot
    have hx := (abs_le.1 (abs_roundInt_sub_le x)).2
    have hy := (abs_le.1 (abs_roundInt_sub_le y)).1
    have hstep : (roundInt y : ℚ) + 1 ≤ roundInt x := by exact_mod_cast (not_le.1 hnot)
    linarith

theorem roundInt_neg (x : ℚ) : roundInt (-x) = -roundInt x := by
  rcases eq_or_ne (Int.fract x) 0 with hzero | hne
  · obtain ⟨n, rfl⟩ : ∃ n : ℤ, x = n := ⟨⌊x⌋, by rw [← Int.floor_add_fract x, hzero]; simp⟩
    rw [← Int.cast_neg, roundInt_intCast, roundInt_intCast]
  · have hfract : Int.fract (-x) = 1 - Int.fract x := Int.fract_neg hne
    have hfloor : ⌊-x⌋ = -⌊x⌋ - 1 := by
      have hsum : (⌊-x⌋ : ℚ) = -⌊x⌋ - 1 := by
        have hx := Int.floor_add_fract x
        have hnx := Int.floor_add_fract (-x)
        linarith
      exact_mod_cast hsum
    have heven : Even (-⌊x⌋ - 1) ↔ ¬ Even ⌊x⌋ := by
      rw [Int.even_sub_one, even_neg]
    unfold roundInt
    simp only [hfract, hfloor, heven]
    rcases lt_trichotomy (Int.fract x) (1 / 2) with hlt | heq | hgt
    · rw [if_neg (by rintro (h | h) <;> linarith [h]), if_pos (.inl hlt)]
      ring
    · by_cases hpar : Even ⌊x⌋
      · rw [if_neg (by rintro (h | h); exacts [by linarith, h.2 hpar]), if_pos (.inr ⟨heq, hpar⟩)]
        ring
      · rw [if_pos (.inr ⟨by linarith, hpar⟩), if_neg (by rintro (h | h); exacts [by linarith, hpar h.2])]
        ring
    · rw [if_pos (.inl (by linarith)), if_neg (by rintro (h | h) <;> linarith [h])]
      ring

section

variable {prec : ℕ} {x y : ℚ}

theorem quantum_pos : 0 < quantum prec x := zpow_ten_pos _

theorem quantum_neg : quantum prec (-x) = quantum prec x := by rw [quantum, quantum, abs_neg]

@[simp] theorem roundRat_zero : roundRat prec 0 = 0 := by
  have h := roundInt_intCast 0
  rw [Int.cast_zero] at h
  simp [roundRat, h]

@[simp] theorem roundRat_neg : roundRat prec (-x) = -roundRat prec x := by
  rw [roundRat, quantum_neg, neg_div, roundInt_neg, roundRat]
  push_cast
  ring

/-- Positive numbers lie between two powers of ten, and so do the multiples of the last place they are rounded to. -/
theorem log_bounds (hx : 0 < x) : (10 : ℚ) ^ Int.log 10 x ≤ x ∧ x < 10 ^ (Int.log 10 x + 1) := by
  have hle := Int.zpow_log_le_self (b := 10) (by norm_num) hx
  have hlt := Int.lt_zpow_succ_log_self (b := 10) (by norm_num) x
  push_cast at hle hlt
  exact ⟨hle, hlt⟩

theorem pow_mul_quantum (hx : 0 < x) : (10 : ℚ) ^ prec * quantum prec x = 10 ^ (Int.log 10 x + 1) := by
  rw [quantum, abs_of_pos hx, ← zpow_natCast, ← zpow_add₀ (by norm_num)]
  congr 1
  omega

theorem roundRat_le_pow (hx : 0 < x) : roundRat prec x ≤ 10 ^ (Int.log 10 x + 1) := by
  have hle : x / quantum prec x ≤ ((10 ^ prec : ℤ) : ℚ) := by
    rw [div_le_iff₀ quantum_pos]
    push_cast
    rw [pow_mul_quantum hx]
    exact (log_bounds hx).2.le
  have hround := roundInt_mono hle
  rw [roundInt_intCast] at hround
  have hcast : (roundInt (x / quantum prec x) : ℚ) ≤ 10 ^ prec := by exact_mod_cast hround
  rw [← pow_mul_quantum hx]
  exact mul_le_mul_of_nonneg_right hcast quantum_pos.le

theorem pow_le_roundRat (hprec : 0 < prec) (hx : 0 < x) : (10 : ℚ) ^ Int.log 10 x ≤ roundRat prec x := by
  obtain ⟨p, rfl⟩ := Nat.exists_eq_succ_of_ne_zero hprec.ne'
  have hpow : (10 : ℚ) ^ p * quantum (p + 1) x = 10 ^ Int.log 10 x := by
    rw [quantum, abs_of_pos hx, ← zpow_natCast, ← zpow_add₀ (by norm_num)]
    congr 1
    push_cast
    omega
  have hle : ((10 ^ p : ℤ) : ℚ) ≤ x / quantum (p + 1) x := by
    rw [le_div_iff₀ quantum_pos]
    push_cast
    rw [hpow]
    exact (log_bounds hx).1
  have hround := roundInt_mono hle
  rw [roundInt_intCast] at hround
  have hcast : (10 : ℚ) ^ p ≤ roundInt (x / quantum (p + 1) x) := by exact_mod_cast hround
  rw [← hpow]
  exact mul_le_mul_of_nonneg_right hcast quantum_pos.le

theorem roundRat_pos (hprec : 0 < prec) (hx : 0 < x) : 0 < roundRat prec x :=
  (zpow_ten_pos _).trans_le (pow_le_roundRat hprec hx)

theorem roundRat_nonneg (hprec : 0 < prec) (hx : 0 ≤ x) : 0 ≤ roundRat prec x := by
  rcases hx.eq_or_lt with rfl | hpos
  · rw [roundRat_zero]
  · exact (roundRat_pos hprec hpos).le

/-- Numbers of one magnitude are rounded at one place, and those of different magnitudes on either side of a power of
ten. -/
theorem roundRat_mono_of_pos (hprec : 0 < prec) (hx : 0 < x) (h : x ≤ y) : roundRat prec x ≤ roundRat prec y := by
  have hy : 0 < y := hx.trans_le h
  rcases (Int.log_mono_right (b := 10) hx h).eq_or_lt with heq | hlt
  · have hquantum : quantum prec y = quantum prec x := by rw [quantum, quantum, abs_of_pos hx, abs_of_pos hy, heq]
    rw [roundRat, roundRat, hquantum]
    refine mul_le_mul_of_nonneg_right ?_ quantum_pos.le
    exact_mod_cast roundInt_mono (div_le_div_of_nonneg_right h quantum_pos.le)
  · calc roundRat prec x ≤ 10 ^ (Int.log 10 x + 1) := roundRat_le_pow hx
      _ ≤ 10 ^ Int.log 10 y := zpow_le_zpow_right₀ (by norm_num) hlt
      _ ≤ roundRat prec y := pow_le_roundRat hprec hy

theorem roundRat_mono (hprec : 0 < prec) (h : x ≤ y) : roundRat prec x ≤ roundRat prec y := by
  rcases lt_or_ge 0 x with hx | hx
  · exact roundRat_mono_of_pos hprec hx h
  · have hnonpos : roundRat prec x ≤ 0 := by
      have hnonneg := roundRat_nonneg hprec (neg_nonneg.2 hx)
      rw [roundRat_neg] at hnonneg
      linarith
    rcases lt_or_ge y 0 with hy | hy
    · have hneg := roundRat_mono_of_pos hprec (neg_pos.2 hy) (neg_le_neg h)
      rw [roundRat_neg, roundRat_neg] at hneg
      linarith
    · exact hnonpos.trans (roundRat_nonneg hprec hy)

theorem roundRat_eq_zero (hprec : 0 < prec) : roundRat prec x = 0 ↔ x = 0 := by
  refine ⟨fun h => ?_, fun h => by rw [h, roundRat_zero]⟩
  rcases lt_trichotomy x 0 with hneg | hzero | hpos
  · have hround := roundRat_pos hprec (neg_pos.2 hneg)
    rw [roundRat_neg, h] at hround
    linarith
  · exact hzero
  · exact absurd h (roundRat_pos hprec hpos).ne'

/-- What has so few digits is not changed: its last digit is not below the place kept. -/
theorem roundRat_of_fits (h : Fits prec x) : roundRat prec x = x := by
  obtain ⟨c, e, hc, rfl⟩ := h
  rcases eq_or_ne c 0 with rfl | hne
  · simp
  · obtain ⟨q, hq⟩ : ∃ q, q = Int.log 10 |(c : ℚ) * 10 ^ e| + 1 - prec := ⟨_, rfl⟩
    have hpos : 0 < |(c : ℚ) * 10 ^ e| := abs_pos.2 (mul_ne_zero (by exact_mod_cast hne) (zpow_ten_pos e).ne')
    have hbound : |(c : ℚ) * 10 ^ e| < 10 ^ (prec + e : ℤ) := by
      rw [abs_mul, abs_of_pos (zpow_ten_pos e), zpow_add₀ (by norm_num), zpow_natCast]
      refine mul_lt_mul_of_pos_right ?_ (zpow_ten_pos e)
      exact_mod_cast hc
    have hlog : Int.log 10 |(c : ℚ) * 10 ^ e| < prec + e := by
      refine (Int.lt_zpow_iff_log_lt (b := 10) (by norm_num) hpos).1 ?_
      exact_mod_cast hbound
    obtain ⟨t, ht⟩ := Int.eq_ofNat_of_zero_le (show 0 ≤ e - q by omega)
    have hsplit : (10 : ℚ) ^ e = 10 ^ t * 10 ^ q := by
      rw [← zpow_natCast, ← zpow_add₀ (by norm_num)]
      congr 1
      omega
    have hdiv : (c : ℚ) * 10 ^ e / 10 ^ q = ((c * 10 ^ t : ℤ) : ℚ) := by
      rw [hsplit, ← mul_assoc, mul_div_cancel_right₀ _ (zpow_ten_pos q).ne']
      push_cast
      rfl
    rw [roundRat, quantum, ← hq, hdiv, roundInt_intCast, hsplit]
    push_cast
    ring

theorem fits_roundRat (hprec : 0 < prec) : Fits prec (roundRat prec x) := by
  rcases eq_or_ne x 0 with rfl | hne
  · exact ⟨0, 0, by positivity, by simp⟩
  · have hpos : 0 < |x| := abs_pos.2 hne
    have hle : |x / quantum prec x| ≤ ((10 ^ prec : ℤ) : ℚ) := by
      have hquantum : 0 < quantum prec x := quantum_pos
      rw [abs_div, abs_of_pos hquantum, div_le_iff₀ quantum_pos]
      have hpow : (10 : ℚ) ^ prec * quantum prec |x| = 10 ^ (Int.log 10 |x| + 1) := pow_mul_quantum hpos
      rw [quantum, abs_abs] at hpow
      rw [quantum]
      push_cast
      rw [hpow]
      exact (log_bounds hpos).2.le
    obtain ⟨hlower, hupper⟩ := abs_le.1 hle
    have hmin := roundInt_mono hlower
    have hmax := roundInt_mono hupper
    rw [← Int.cast_neg, roundInt_intCast] at hmin
    rw [roundInt_intCast] at hmax
    rcases (abs_le.2 ⟨hmin, hmax⟩).lt_or_eq with hlt | heq
    · exact ⟨_, _, hlt, rfl⟩
    · -- a carry out of the first digit leaves a power of ten
      have hone : ∀ s : ℤ, |s| = 1 → Fits prec ((s * 10 ^ prec : ℤ) * quantum prec x) := by
        intro s hs
        refine ⟨s, prec + (Int.log 10 |x| + 1 - prec), ?_, ?_⟩
        · rw [hs]
          exact one_lt_pow₀ (by norm_num) hprec.ne'
        · rw [quantum, zpow_add₀ (by norm_num), zpow_natCast]
          push_cast
          ring
      rcases (abs_eq (by positivity)).1 heq with hval | hval
      · have hfits := hone 1 rfl
        rwa [one_mul, ← hval] at hfits
      · have hfits := hone (-1) rfl
        rwa [neg_one_mul, ← hval] at hfits

end

example : roundRat 3 (12345 / 10) = 1230 := by decide +kernel

end Decimal
