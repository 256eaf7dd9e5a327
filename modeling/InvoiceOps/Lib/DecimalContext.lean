import InvoiceOps.Lib.Rounding

/-! Decimal arithmetic in a context. Every operation rounds its exact result to the precision in force; where there is
none, nothing is rounded. A result is the rounded number of the exact result, so what is known of rounding holds of
each operation. -/

/-- The precision in force: how many digits the result of an operation is rounded to, or none for exact arithmetic. -/
class DecimalContext where
  prec : Option ℕ
  prec_pos : ∀ p ∈ prec, 0 < p

namespace DecimalContext

/-- The default context, of 28 digits. -/
instance standard : DecimalContext where
  prec := some 28
  prec_pos := by simp

/-- Arithmetic that rounds nothing. -/
@[reducible] def exact : DecimalContext where
  prec := none
  prec_pos := by simp

section

variable [DecimalContext]

def round (d : Decimal) : Decimal :=
  match prec with
  | none => d
  | some p => d.roundHalfEven p

def add (a b : Decimal) : Decimal := round (a + b)

def subtract (a b : Decimal) : Decimal := round (a - b)

def multiply (a b : Decimal) : Decimal := round (a * b)

protected def abs (d : Decimal) : Decimal := round d.abs

/-- The absolute value of a difference; both operations round. -/
def absDiff (a b : Decimal) : Decimal := DecimalContext.abs (subtract a b)

/-- The sum from zero on, rounded after each summand. -/
def sum (ds : List Decimal) : Decimal := ds.foldl add Decimal.zero

/-- A number as the context rounds it. -/
def rounded (x : ℚ) : ℚ :=
  match prec with
  | none => x
  | some p => Decimal.roundRat p x

/-- The context represents the number. -/
def Kept (x : ℚ) : Prop := rounded x = x

theorem rounded_mono {x y : ℚ} (h : x ≤ y) : rounded x ≤ rounded y := by
  unfold rounded
  split
  · exact h
  · next p hp => exact Decimal.roundRat_mono (prec_pos p hp) h

@[simp] theorem rounded_zero : rounded 0 = 0 := by
  unfold rounded
  split
  · rfl
  · exact Decimal.roundRat_zero

@[simp] theorem rounded_neg (x : ℚ) : rounded (-x) = -rounded x := by
  unfold rounded
  split
  · rfl
  · exact Decimal.roundRat_neg

@[simp] theorem rounded_eq_zero {x : ℚ} : rounded x = 0 ↔ x = 0 := by
  unfold rounded
  split
  · rfl
  · next p hp => exact Decimal.roundRat_eq_zero (prec_pos p hp)

theorem kept_rounded (x : ℚ) : Kept (rounded x) := by
  unfold Kept rounded
  split
  · rfl
  · next p hp => exact Decimal.roundRat_of_fits (Decimal.fits_roundRat (prec_pos p hp))

@[simp] theorem rounded_rounded (x : ℚ) : rounded (rounded x) = rounded x := kept_rounded x

theorem rounded_nonneg {x : ℚ} (h : 0 ≤ x) : 0 ≤ rounded x := rounded_zero ▸ rounded_mono h

theorem rounded_abs (x : ℚ) : rounded |x| = |rounded x| := by
  rcases le_total 0 x with h | h
  · rw [abs_of_nonneg h, abs_of_nonneg (rounded_nonneg h)]
  · have hneg := rounded_nonneg (neg_nonneg.2 h)
    rw [rounded_neg] at hneg
    rw [abs_of_nonpos h, rounded_neg, abs_of_nonpos (by linarith)]

theorem Kept.le_rounded {x y : ℚ} (hx : Kept x) (h : x ≤ y) : x ≤ rounded y := by
  have hmono := rounded_mono h
  rwa [hx] at hmono

theorem Kept.rounded_le {x y : ℚ} (hy : Kept y) (h : x ≤ y) : rounded x ≤ y := by
  have hmono := rounded_mono h
  rwa [hy] at hmono

@[simp] theorem toRat_round (d : Decimal) : (round d).toRat = rounded d.toRat := by
  unfold round rounded
  split
  · rfl
  · next p hp => exact Decimal.toRat_roundHalfEven_eq (prec_pos p hp)

@[simp] theorem toRat_add (a b : Decimal) : (add a b).toRat = rounded (a.toRat + b.toRat) := by
  rw [add, toRat_round, Decimal.toRat_add]

@[simp] theorem toRat_subtract (a b : Decimal) : (subtract a b).toRat = rounded (a.toRat - b.toRat) := by
  rw [subtract, toRat_round, Decimal.toRat_sub]

@[simp] theorem toRat_multiply (a b : Decimal) : (multiply a b).toRat = rounded (a.toRat * b.toRat) := by
  rw [multiply, toRat_round, Decimal.toRat_mul]

@[simp] theorem toRat_abs (d : Decimal) : (DecimalContext.abs d).toRat = |rounded d.toRat| := by
  rw [DecimalContext.abs, toRat_round, Decimal.toRat_abs, rounded_abs]

@[simp] theorem toRat_absDiff (a b : Decimal) : (absDiff a b).toRat = |rounded (a.toRat - b.toRat)| := by
  rw [absDiff, toRat_abs, toRat_subtract, rounded_rounded]

/-- The sum of numbers, rounded after each summand. -/
def roundedSum (xs : List ℚ) : ℚ := xs.foldl (fun total x => rounded (total + x)) 0

@[simp] theorem toRat_sum (ds : List Decimal) : (sum ds).toRat = roundedSum (ds.map Decimal.toRat) := by
  have hfold : ∀ start : Decimal, (ds.foldl add start).toRat =
      (ds.map Decimal.toRat).foldl (fun total x => rounded (total + x)) start.toRat := by
    induction ds with
    | nil => exact fun _ => rfl
    | cons d ds ih =>
      intro start
      rw [List.foldl_cons, ih, toRat_add, List.map_cons, List.foldl_cons]
  rw [sum, hfold, Decimal.toRat_zero, roundedSum]

theorem kept_roundedSum (xs : List ℚ) : Kept (roundedSum xs) := by
  have hfold : ∀ start, Kept start → Kept (xs.foldl (fun total x => rounded (total + x)) start) := by
    induction xs with
    | nil => exact fun _ h => h
    | cons x xs ih => exact fun start _ => ih _ (kept_rounded _)
  exact hfold 0 rounded_zero

/-- Further summands that are not negative take nothing away. -/
theorem le_foldl_rounded {xs : List ℚ} (h : ∀ x ∈ xs, 0 ≤ x) {start : ℚ} (hstart : Kept start) :
    start ≤ xs.foldl (fun total x => rounded (total + x)) start := by
  induction xs generalizing start with
  | nil => exact le_rfl
  | cons x xs ih =>
    rw [List.foldl_cons]
    have hx := h x (by simp)
    exact (hstart.le_rounded (by linarith)).trans (ih (fun y hy => h y (by simp [hy])) (kept_rounded _))

/-- Where the context rounds, it keeps at least 28 digits, and the number is a whole number of hundred-millionths, fewer
than `n` of them. The values of a `Numeric(24, 8)` column are the numbers `Scaled (10 ^ 24)`. -/
def Scaled (n : ℤ) (x : ℚ) : Prop := ∀ p ∈ prec, 28 ≤ p ∧ ∃ m : ℤ, |m| < n ∧ x = m / 10 ^ 8

theorem Scaled.add {n k : ℤ} {x y : ℚ} (hx : Scaled n x) (hy : Scaled k y) : Scaled (n + k) (x + y) := by
  intro p hp
  obtain ⟨h28, a, ha, rfl⟩ := hx p hp
  obtain ⟨-, b, hb, rfl⟩ := hy p hp
  exact ⟨h28, a + b, (abs_add_le a b).trans_lt (add_lt_add ha hb), by push_cast; ring⟩

theorem Scaled.neg {n : ℤ} {x : ℚ} (hx : Scaled n x) : Scaled n (-x) := by
  intro p hp
  obtain ⟨h28, a, ha, rfl⟩ := hx p hp
  exact ⟨h28, -a, by rwa [abs_neg], by push_cast; ring⟩

theorem Scaled.sub {n k : ℤ} {x y : ℚ} (hx : Scaled n x) (hy : Scaled k y) : Scaled (n + k) (x - y) :=
  sub_eq_add_neg x y ▸ hx.add hy.neg

theorem Scaled.mono {n k : ℤ} {x : ℚ} (hx : Scaled n x) (h : n ≤ k) : Scaled k x := by
  intro p hp
  obtain ⟨h28, a, ha, hxa⟩ := hx p hp
  exact ⟨h28, a, ha.trans_le h, hxa⟩

/-- Numbers of at most 28 digits on this scale are kept. -/
theorem Scaled.kept {n : ℤ} {x : ℚ} (hx : Scaled n x) (h : n ≤ 10 ^ 28) : Kept x := by
  unfold Kept rounded
  split
  · rfl
  · next p hp =>
    obtain ⟨h28, a, ha, rfl⟩ := hx p hp
    refine Decimal.roundRat_of_fits ⟨a, -8, (ha.trans_le h).trans_le ?_, ?_⟩
    · exact pow_le_pow_right₀ (by norm_num) h28
    · rw [zpow_neg, div_eq_mul_inv]
      norm_num

/-- What is rounded to less than `10 ^ 20` is less than that. -/
theorem Scaled.of_rounded_le {x y : ℚ} {n k : ℤ} (hx : Scaled n x) (h0 : 0 ≤ x) (hy : Scaled k y) (hk : k ≤ 10 ^ 28)
    (h : rounded x ≤ y) : Scaled (10 ^ 28) x := by
  intro p hp
  obtain ⟨h28, a, -, rfl⟩ := hx p hp
  refine ⟨h28, a, ?_, rfl⟩
  have ha0 : (0 : ℚ) ≤ a := by
    have hmul := mul_nonneg h0 (show (0 : ℚ) ≤ 10 ^ 8 by positivity)
    rwa [div_mul_cancel₀ _ (by positivity)] at hmul
  rw [abs_of_nonneg (by exact_mod_cast ha0)]
  by_contra hge
  have hlimit : Kept (10 ^ 20 : ℚ) := by
    unfold Kept rounded
    split
    · rfl
    · next q hq => exact Decimal.roundRat_of_fits ⟨1, 20, one_lt_pow₀ (by norm_num) (prec_pos q hq).ne', by norm_num⟩
  have hlarge : (10 ^ 20 : ℚ) ≤ a / 10 ^ 8 := by
    rw [le_div_iff₀ (by positivity)]
    have hcast : ((10 ^ 28 : ℤ) : ℚ) ≤ (a : ℚ) := by exact_mod_cast not_lt.1 hge
    push_cast at hcast
    linarith
  obtain ⟨-, b, hb, rfl⟩ := hy p hp
  have hb' : ((b : ℤ) : ℚ) < ((10 ^ 28 : ℤ) : ℚ) := by exact_mod_cast (le_abs_self b).trans_lt (hb.trans_le hk)
  have hsmall : (b : ℚ) / 10 ^ 8 < 10 ^ 20 := by
    rw [div_lt_iff₀ (by positivity)]
    push_cast at hb'
    linarith
  exact absurd ((hlimit.le_rounded hlarge).trans h) (not_le.2 hsmall)

/-- A sum that is so small, before or after it is rounded, is not rounded: the sums on the way are smaller. -/
theorem roundedSum_eq_sum {xs : List ℚ} {y : ℚ} {n k : ℤ} (hxs : ∀ x ∈ xs, 0 ≤ x ∧ Scaled n x) (hy : Scaled k y)
    (hk : k ≤ 10 ^ 28) (h : roundedSum xs ≤ y ∨ xs.sum ≤ y) : roundedSum xs = xs.sum := by
  have hfold : ∀ start, 0 ≤ start → Scaled (10 ^ 28) start →
      xs.foldl (fun total x => rounded (total + x)) start ≤ y ∨ start + xs.sum ≤ y →
        xs.foldl (fun total x => rounded (total + x)) start = start + xs.sum := by
    clear h
    induction xs with
    | nil => simp
    | cons x xs ih =>
      intro start h0 hstart hle
      obtain ⟨hx0, hx⟩ := hxs x (by simp)
      have hrest : ∀ z ∈ xs, 0 ≤ z ∧ Scaled n z := fun z hz => hxs z (by simp [hz])
      rw [List.foldl_cons, List.sum_cons, ← add_assoc] at hle ⊢
      have hpartial : rounded (start + x) ≤ y := by
        rcases hle with hle | hle
        · exact (le_foldl_rounded (fun z hz => (hrest z hz).1) (kept_rounded _)).trans hle
        · have hnonneg := List.sum_nonneg fun z hz => (hrest z hz).1
          exact (hy.kept hk).rounded_le (by linarith)
      have hscaled : Scaled (10 ^ 28) (start + x) :=
        (hstart.add hx).of_rounded_le (add_nonneg h0 hx0) hy hk hpartial
      have hkept : rounded (start + x) = start + x := hscaled.kept le_rfl
      rw [hkept] at hle ⊢
      exact ih hrest (start + x) (add_nonneg h0 hx0) hscaled hle
  have hzero : Scaled (10 ^ 28) 0 := fun p hp => ⟨(hy p hp).1, 0, by norm_num, by simp⟩
  have hsum := hfold 0 le_rfl hzero (by rwa [zero_add])
  rwa [zero_add] at hsum

/-- So is a sum of numbers that are not negative, when it is not above a number on this scale. -/
theorem Scaled.sum_le {xs : List ℚ} {y : ℚ} {n k : ℤ} (hxs : ∀ x ∈ xs, 0 ≤ x ∧ Scaled n x) (hy : Scaled k y)
    (h : xs.sum ≤ y) : Scaled k xs.sum := by
  intro p hp
  obtain ⟨h28, b, hb, rfl⟩ := hy p hp
  have hwhole : ∃ m : ℤ, xs.sum = m / 10 ^ 8 := by
    clear h
    induction xs with
    | nil => exact ⟨0, by simp⟩
    | cons x xs ih =>
      obtain ⟨m, hm⟩ := ih fun z hz => hxs z (by simp [hz])
      obtain ⟨-, a, -, rfl⟩ := (hxs x (by simp)).2 p hp
      exact ⟨a + m, by rw [List.sum_cons, hm]; push_cast; ring⟩
  obtain ⟨m, hm⟩ := hwhole
  have hnonneg := List.sum_nonneg fun z hz => (hxs z hz).1
  rw [hm] at h hnonneg
  have hm0 : (0 : ℚ) ≤ m := by
    have hmul := mul_nonneg hnonneg (show (0 : ℚ) ≤ 10 ^ 8 by positivity)
    rwa [div_mul_cancel₀ _ (by positivity)] at hmul
  have hmb : m ≤ b := by exact_mod_cast (div_le_div_iff_of_pos_right (by positivity)).1 h
  refine ⟨h28, m, ?_, hm⟩
  rw [abs_of_nonneg (by exact_mod_cast hm0)]
  exact (hmb.trans (le_abs_self b)).trans_lt hb

end

end DecimalContext
