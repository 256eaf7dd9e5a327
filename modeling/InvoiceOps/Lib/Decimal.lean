import InvoiceOps.Lib.Digits
import Mathlib.Data.List.TakeWhile
import Mathlib.Data.Rat.Defs
import Mathlib.Algebra.Order.Field.Rat
import Mathlib.Tactic

/-! Finite decimal floating-point numbers as the general decimal arithmetic has them: a sign, a
coefficient and an exponent, so that `20` and `20.00` are different values of one number. The
operators are exact (a context whose precision is never exceeded); `minus` rounds. `toRat` is the number a value
denotes; every comparison and operation is stated through it. -/

structure Decimal where
  neg : Bool
  coeff : ℕ
  exp : ℤ
deriving DecidableEq, Repr

namespace Decimal

/-- The coefficient with its sign. -/
def int (d : Decimal) : ℤ := if d.neg then -(d.coeff : ℤ) else d.coeff

/-- The signed coefficient after rescaling to an exponent `m` not above the value's own. -/
def scaled (m : ℤ) (d : Decimal) : ℤ := d.int * 10 ^ (d.exp - m).toNat

def toRat (d : Decimal) : ℚ := d.int * (10 : ℚ) ^ d.exp

theorem toRat_eq_scaled {m : ℤ} {d : Decimal} (h : m ≤ d.exp) :
    d.toRat = d.scaled m * (10 : ℚ) ^ m := by
  have hexp : d.exp = ((d.exp - m).toNat : ℤ) + m := by omega
  unfold toRat scaled
  conv_lhs => rw [hexp]
  rw [zpow_add₀ (by norm_num), zpow_natCast]
  push_cast
  ring

theorem ten_zpow_pos (m : ℤ) : (0 : ℚ) < (10 : ℚ) ^ m := zpow_pos (by norm_num) m

/-- Numeric equality; structural equality also compares exponents. -/
def numEq (a b : Decimal) : Prop := a.scaled (min a.exp b.exp) = b.scaled (min a.exp b.exp)

instance : LE Decimal := ⟨fun a b => a.scaled (min a.exp b.exp) ≤ b.scaled (min a.exp b.exp)⟩

instance : LT Decimal := ⟨fun a b => a.scaled (min a.exp b.exp) < b.scaled (min a.exp b.exp)⟩

instance (a b : Decimal) : Decidable (numEq a b) :=
  inferInstanceAs (Decidable (a.scaled (min a.exp b.exp) = b.scaled (min a.exp b.exp)))

instance (a b : Decimal) : Decidable (a ≤ b) :=
  inferInstanceAs (Decidable (a.scaled (min a.exp b.exp) ≤ b.scaled (min a.exp b.exp)))

instance (a b : Decimal) : Decidable (a < b) :=
  inferInstanceAs (Decidable (a.scaled (min a.exp b.exp) < b.scaled (min a.exp b.exp)))

theorem le_iff (a b : Decimal) : a ≤ b ↔ a.toRat ≤ b.toRat := by
  rw [toRat_eq_scaled (min_le_left a.exp b.exp), toRat_eq_scaled (min_le_right a.exp b.exp),
    mul_le_mul_iff_left₀ (ten_zpow_pos _)]
  exact Int.cast_le.symm

theorem lt_iff (a b : Decimal) : a < b ↔ a.toRat < b.toRat := by
  rw [toRat_eq_scaled (min_le_left a.exp b.exp), toRat_eq_scaled (min_le_right a.exp b.exp),
    mul_lt_mul_iff_left₀ (ten_zpow_pos _)]
  exact Int.cast_lt.symm

theorem numEq_iff (a b : Decimal) : a.numEq b ↔ a.toRat = b.toRat := by
  rw [toRat_eq_scaled (min_le_left a.exp b.exp), toRat_eq_scaled (min_le_right a.exp b.exp),
    mul_left_inj' (ten_zpow_pos _).ne']
  exact Int.cast_inj.symm

/-- A value with a given signed coefficient; a zero keeps the sign it is given. -/
def ofInt (zeroNeg : Bool) (s exp : ℤ) : Decimal :=
  ⟨if s = 0 then zeroNeg else decide (s < 0), s.natAbs, exp⟩

theorem int_ofInt (z : Bool) (s e : ℤ) : (ofInt z s e).int = s := by
  rcases lt_trichotomy s 0 with h | h | h
  · simp only [ofInt, int, h.ne, h, if_false, decide_true, if_true]; omega
  · subst h; simp [ofInt, int]
  · simp only [ofInt, int, h.ne', h.not_gt, if_false, decide_false, Bool.false_eq_true]; omega

def zero : Decimal := ⟨false, 0, 0⟩

protected def abs (d : Decimal) : Decimal := { d with neg := false }

instance : Neg Decimal := ⟨fun d => { d with neg := !d.neg }⟩

instance : Add Decimal := ⟨fun a b =>
  ofInt (a.neg && b.neg) (a.scaled (min a.exp b.exp) + b.scaled (min a.exp b.exp))
    (min a.exp b.exp)⟩

instance : Sub Decimal := ⟨fun a b => a + -b⟩

instance : Mul Decimal := ⟨fun a b => ⟨a.neg != b.neg, a.coeff * b.coeff, a.exp + b.exp⟩⟩

@[simp] theorem toRat_zero : zero.toRat = 0 := by simp [zero, toRat, int]

@[simp] theorem toRat_neg (a : Decimal) : (-a).toRat = -a.toRat := by
  change (((-a).int : ℤ) : ℚ) * (10 : ℚ) ^ a.exp = -(a.int * (10 : ℚ) ^ a.exp)
  have h : (-a).int = -a.int := by
    change (if !a.neg then -(a.coeff : ℤ) else a.coeff) = -(if a.neg then -(a.coeff : ℤ) else a.coeff)
    cases a.neg <;> simp
  rw [h]; push_cast; ring

@[simp] theorem toRat_add (a b : Decimal) : (a + b).toRat = a.toRat + b.toRat := by
  rw [toRat_eq_scaled (min_le_left a.exp b.exp), toRat_eq_scaled (min_le_right a.exp b.exp),
    ← add_mul, ← Int.cast_add]
  change ((ofInt _ _ _).int : ℚ) * _ = _
  rw [int_ofInt]
  rfl

@[simp] theorem toRat_sub (a b : Decimal) : (a - b).toRat = a.toRat - b.toRat := by
  change (a + -b).toRat = _
  rw [toRat_add, toRat_neg, sub_eq_add_neg]

@[simp] theorem toRat_mul (a b : Decimal) : (a * b).toRat = a.toRat * b.toRat := by
  have h : (a * b).int = a.int * b.int := by
    change (if a.neg != b.neg then -((a.coeff * b.coeff : ℕ) : ℤ) else ((a.coeff * b.coeff : ℕ) : ℤ)) = _
    unfold int
    cases a.neg <;> cases b.neg <;> simp
  change ((a * b).int : ℚ) * (10 : ℚ) ^ (a.exp + b.exp) = _
  rw [h, zpow_add₀ (by norm_num)]
  unfold toRat
  push_cast
  ring

@[simp] theorem toRat_abs (a : Decimal) : a.abs.toRat = |a.toRat| := by
  have h : (a.abs.int : ℚ) = |(a.int : ℚ)| := by
    unfold Decimal.abs int
    cases a.neg <;> simp
  change (a.abs.int : ℚ) * (10 : ℚ) ^ a.exp = _
  rw [h, toRat, abs_mul, abs_of_pos (ten_zpow_pos a.exp)]

/-- The value with at most `prec` digits, the others rounded half to even. -/
def roundHalfEven (prec : ℕ) (d : Decimal) : Decimal :=
  let k := (Nat.toDigits 10 d.coeff).length - prec
  if k = 0 then d
  else
    let q := d.coeff / 10 ^ k
    let r := d.coeff % 10 ^ k
    let n := if 10 ^ k < 2 * r ∨ 2 * r = 10 ^ k ∧ q % 2 = 1 then q + 1 else q
    -- a carry out of the first digit shifts once more
    if n = 10 ^ prec then ⟨d.neg, 10 ^ (prec - 1), d.exp + k + 1⟩ else ⟨d.neg, n, d.exp + k⟩

/-- Unary minus in a context of `prec` digits; a zero loses its sign. -/
def minus (prec : ℕ) (d : Decimal) : Decimal := (if d.coeff = 0 then d.abs else -d).roundHalfEven prec

example : (⟨false, 99995, -1⟩ : Decimal).minus 4 = ⟨true, 1000, 1⟩ := by decide

/-- The digits of a value with a negative exponent, left-padded so that one digit remains
before the point. -/
def padded (d : Decimal) : List Char :=
  let ds := Nat.toDigits 10 d.coeff
  List.replicate ((-d.exp).toNat + 1 - ds.length) '0' ++ ds

/-- The fixed-point format `f` without a precision: no exponent, all stored digits. -/
def chars (d : Decimal) : List Char :=
  (if d.neg then ['-'] else []) ++
    if 0 ≤ d.exp then
      if d.coeff = 0 then ['0'] else Nat.toDigits 10 d.coeff ++ List.replicate d.exp.toNat '0'
    else
      let n := d.padded.length - (-d.exp).toNat
      d.padded.take n ++ '.' :: d.padded.drop n

def text (d : Decimal) : String := String.ofList d.chars

/-- An optional exponent part: nothing, or `e`, an optional sign and at least one digit. -/
def readExponent : List Char → Option ℤ
  | [] => some 0
  | c :: r =>
    if c = 'e' ∨ c = 'E' then
      let ds := match r with
        | '+' :: ds | '-' :: ds => ds
        | ds => ds
      if ds ≠ [] ∧ ds.all Char.isDigit then
        let n : ℤ := Nat.ofDigitChars 10 ds 0
        some (if r.head? = some '-' then -n else n)
      else none
    else none

/-- Digits, optionally a point and more digits, optionally an exponent. -/
def readUnsigned (neg : Bool) (cs : List Char) : Option Decimal :=
  let ip := cs.takeWhile Char.isDigit
  let r := cs.dropWhile Char.isDigit
  let fp := if r.head? = some '.' then r.tail.takeWhile Char.isDigit else []
  let r' := if r.head? = some '.' then r.tail.dropWhile Char.isDigit else r
  if ip ++ fp = [] then none
  else (readExponent r').map fun e => ⟨neg, Nat.ofDigitChars 10 (ip ++ fp) 0, e - fp.length⟩

def readChars : List Char → Option Decimal
  | '-' :: cs => readUnsigned true cs
  | '+' :: cs => readUnsigned false cs
  | cs => readUnsigned false cs

/-- The value a numeric text denotes; `none` is the constructor's `InvalidOperation`. -/
def ofText (s : String) : Option Decimal := readChars s.toList

theorem readUnsigned_digits (neg : Bool) {ds : List Char} (hne : ds ≠ [])
    (hds : ∀ c ∈ ds, c.isDigit = true) :
    readUnsigned neg ds = some ⟨neg, Nat.ofDigitChars 10 ds 0, 0⟩ := by
  have ht : ds.takeWhile Char.isDigit = ds := List.takeWhile_eq_self_iff.2 hds
  have hd : ds.dropWhile Char.isDigit = [] := List.dropWhile_eq_nil_iff.2 hds
  simp [readUnsigned, ht, hd, hne, readExponent]

theorem readUnsigned_point (neg : Bool) {ip fp : List Char} (hne : ip ≠ [])
    (hip : ∀ c ∈ ip, c.isDigit = true) (hfp : ∀ c ∈ fp, c.isDigit = true) :
    readUnsigned neg (ip ++ '.' :: fp) =
      some ⟨neg, Nat.ofDigitChars 10 (ip ++ fp) 0, -(fp.length : ℤ)⟩ := by
  have hdot : Char.isDigit '.' = false := by decide
  have ht : (ip ++ '.' :: fp).takeWhile Char.isDigit = ip := by
    rw [List.takeWhile_append_of_pos hip]; simp [hdot]
  have hd : (ip ++ '.' :: fp).dropWhile Char.isDigit = '.' :: fp := by
    rw [List.dropWhile_append_of_pos hip]; simp [hdot]
  have ht' : fp.takeWhile Char.isDigit = fp := List.takeWhile_eq_self_iff.2 hfp
  have hd' : fp.dropWhile Char.isDigit = [] := List.dropWhile_eq_nil_iff.2 hfp
  simp [readUnsigned, ht, hd, ht', hd', hne, readExponent]

theorem readChars_sign {neg : Bool} {ds : List Char} (h : ∃ c ∈ ds.head?, c ≠ '-' ∧ c ≠ '+') :
    readChars ((if neg then ['-'] else []) ++ ds) = readUnsigned neg ds := by
  obtain ⟨c, hc, h1, h2⟩ := h
  cases ds with
  | nil => simp at hc
  | cons a ds =>
    obtain rfl : a = c := by simpa using hc
    cases neg with
    | true => rfl
    | false =>
      simp only [Bool.false_eq_true, if_false, List.nil_append]
      unfold readChars
      split
      · simp_all
      · simp_all
      · rfl

theorem isDigit_padded {d : Decimal} {c : Char} (h : c ∈ d.padded) : c.isDigit = true := by
  rcases List.mem_append.1 h with h | h
  · rw [List.eq_of_mem_replicate h]; decide
  · exact Digits.isDigit_toDigits h

theorem read_padded (d : Decimal) : Nat.ofDigitChars 10 d.padded 0 = d.coeff := by
  rw [padded, Nat.ofDigitChars_append, Nat.ofDigitChars_replicate_zero, Nat.mul_zero,
    Nat.ofDigitChars_ten_toDigits]

theorem length_padded (d : Decimal) : (-d.exp).toNat < d.padded.length := by
  simp only [padded, List.length_append, List.length_replicate]
  omega

theorem ne_sign_of_isDigit {c : Char} (h : c.isDigit = true) : c ≠ '-' ∧ c ≠ '+' := by
  constructor <;> rintro rfl <;> exact absurd h (by decide)

theorem head_of_digits {ds r : List Char} (hne : ds ≠ []) (hds : ∀ c ∈ ds, c.isDigit = true) :
    ∃ c ∈ (ds ++ r).head?, c ≠ '-' ∧ c ≠ '+' := by
  cases ds with
  | nil => exact absurd rfl hne
  | cons c ds => exact ⟨c, by simp, ne_sign_of_isDigit (hds c (by simp))⟩

/-- A negative exponent is printed in full and read back as it is. -/
theorem ofText_text_of_neg {d : Decimal} (h : d.exp < 0) : ofText d.text = some d := by
  set n := d.padded.length - (-d.exp).toNat with hn
  have hlen := d.length_padded
  have hne : d.padded.take n ≠ [] := by
    intro h0
    have := congrArg List.length h0
    simp only [List.length_take, List.length_nil] at this
    omega
  have hip : ∀ c ∈ d.padded.take n, c.isDigit = true := fun c hc => isDigit_padded (List.mem_of_mem_take hc)
  have hfp : ∀ c ∈ d.padded.drop n, c.isDigit = true := fun c hc => isDigit_padded (List.mem_of_mem_drop hc)
  have hchars : d.chars = (if d.neg then ['-'] else []) ++ (d.padded.take n ++ '.' :: d.padded.drop n) := by
    simp [chars, not_le.2 h, hn]
  rw [ofText, text, String.toList_ofList, hchars, readChars_sign (head_of_digits hne hip),
    readUnsigned_point _ hne hip hfp, List.take_append_drop, read_padded]
  congr 1
  have : -((d.padded.drop n).length : ℤ) = d.exp := by
    simp only [List.length_drop]; omega
  rw [this]

/-- A value with a non-negative exponent is printed, and read back, at exponent zero. -/
theorem ofText_text_of_nonneg {d : Decimal} (h : 0 ≤ d.exp) :
    ofText d.text = some ⟨d.neg, d.coeff * 10 ^ d.exp.toNat, 0⟩ := by
  have hbody : ∃ ds : List Char, d.chars = (if d.neg then ['-'] else []) ++ ds ∧ ds ≠ [] ∧
      (∀ c ∈ ds, c.isDigit = true) ∧ Nat.ofDigitChars 10 ds 0 = d.coeff * 10 ^ d.exp.toNat := by
    by_cases h0 : d.coeff = 0
    · have hdigit : ∀ c ∈ ['0'], c.isDigit = true := by
        intro c hc
        rw [List.mem_singleton.1 hc]
        rfl
      exact ⟨['0'], by simp [chars, h, h0], by simp, hdigit, by simp [h0]; rfl⟩
    · refine ⟨Nat.toDigits 10 d.coeff ++ List.replicate d.exp.toNat '0', by simp [chars, h, h0],
        by simp, ?_, ?_⟩
      · intro c hc
        rcases List.mem_append.1 hc with hc | hc
        · exact Digits.isDigit_toDigits hc
        · rw [List.eq_of_mem_replicate hc]; decide
      · rw [Nat.ofDigitChars_append, Nat.ofDigitChars_ten_toDigits, Nat.ofDigitChars_replicate_zero,
          Nat.mul_comm]
  obtain ⟨ds, hchars, hne, hds, hval⟩ := hbody
  rw [ofText, text, String.toList_ofList, hchars,
    readChars_sign (by simpa using head_of_digits (r := []) hne hds), readUnsigned_digits _ hne hds, hval]

/-- Printing and reading back keeps the number. -/
theorem ofText_text (d : Decimal) : ∃ d', ofText d.text = some d' ∧ d'.toRat = d.toRat := by
  rcases lt_or_ge d.exp 0 with h | h
  · exact ⟨d, ofText_text_of_neg h, rfl⟩
  · refine ⟨_, ofText_text_of_nonneg h, ?_⟩
    have hexp : d.exp = (d.exp.toNat : ℤ) := by omega
    unfold toRat int
    conv_rhs => rw [hexp]
    rw [zpow_natCast]
    cases d.neg <;> simp

example : (⟨true, 2000, -2⟩ : Decimal).text = "-20.00" := by decide

end Decimal
