import InvoiceOps.Lib.Decimal

/-! The text `str` gives a decimal: plain digits while the exponent is small, the scientific form
beyond that. Unlike the fixed-point text it keeps the exponent, so it is read back as it is and two
values with one text are the same value. -/

namespace Decimal

/-- The power of ten one above the first digit. -/
def leftDigits (d : Decimal) : ℤ := d.exp + (Nat.toDigits 10 d.coeff).length

/-- How many digits stand before the point. There are never fewer digits than that. -/
def dotPlace (d : Decimal) : ℤ := if d.exp ≤ 0 ∧ -6 < d.leftDigits then d.leftDigits else 1

def intPart (d : Decimal) : List Char :=
  if d.dotPlace ≤ 0 then ['0'] else (Nat.toDigits 10 d.coeff).take d.dotPlace.toNat

def fracPart (d : Decimal) : List Char :=
  if d.dotPlace ≤ 0 then List.replicate (-d.dotPlace).toNat '0' ++ Nat.toDigits 10 d.coeff
  else (Nat.toDigits 10 d.coeff).drop d.dotPlace.toNat

/-- `E` with a sign and the digits of the exponent; nothing when it is zero. -/
def expPart (e : ℤ) : List Char :=
  if e = 0 then [] else 'E' :: (if e < 0 then '-' else '+') :: Nat.toDigits 10 e.natAbs

def strChars (d : Decimal) : List Char :=
  (if d.neg then ['-'] else []) ++
    (d.intPart ++ ((if d.fracPart = [] then [] else '.' :: d.fracPart) ++ expPart (d.leftDigits - d.dotPlace)))

def str (d : Decimal) : String := String.ofList d.strChars

theorem dotPlace_le (d : Decimal) : d.dotPlace ≤ (Nat.toDigits 10 d.coeff).length := by
  have hpos : 0 < (Nat.toDigits 10 d.coeff).length := List.length_pos_iff.2 Nat.toDigits_ne_nil
  unfold dotPlace leftDigits
  split_ifs with h
  · omega
  · omega

theorem isDigit_intPart {d : Decimal} {c : Char} (h : c ∈ d.intPart) : c.isDigit = true := by
  unfold intPart at h
  split_ifs at h with hdot
  · rw [List.mem_singleton.1 h]
    rfl
  · exact Digits.isDigit_toDigits (List.mem_of_mem_take h)

theorem isDigit_fracPart {d : Decimal} {c : Char} (h : c ∈ d.fracPart) : c.isDigit = true := by
  unfold fracPart at h
  split_ifs at h with hdot
  · rcases List.mem_append.1 h with h | h
    · rw [List.eq_of_mem_replicate h]
      rfl
    · exact Digits.isDigit_toDigits h
  · exact Digits.isDigit_toDigits (List.mem_of_mem_drop h)

theorem intPart_ne_nil (d : Decimal) : d.intPart ≠ [] := by
  unfold intPart
  split_ifs with hdot
  · simp
  · have hpos : 0 < d.dotPlace.toNat := by omega
    simp [List.take_eq_nil_iff, hpos.ne', Nat.toDigits_ne_nil]

theorem read_parts (d : Decimal) : Nat.ofDigitChars 10 (d.intPart ++ d.fracPart) 0 = d.coeff := by
  unfold intPart fracPart
  split_ifs with hdot
  · rw [← List.append_assoc, ← List.replicate_one, List.replicate_append_replicate, Nat.ofDigitChars_append,
      Nat.ofDigitChars_replicate_zero, Nat.mul_zero, Nat.ofDigitChars_ten_toDigits]
  · rw [List.take_append_drop, Nat.ofDigitChars_ten_toDigits]

theorem length_fracPart (d : Decimal) :
    (d.fracPart.length : ℤ) = (Nat.toDigits 10 d.coeff).length - d.dotPlace := by
  have hle := d.dotPlace_le
  unfold fracPart
  split_ifs with hdot
  · rw [List.length_append, List.length_replicate]
    omega
  · rw [List.length_drop]
    omega

theorem readExponent_expPart (e : ℤ) : readExponent (expPart e) = some e := by
  unfold expPart
  split_ifs with h0 hneg
  · rw [h0]
    rfl
  · have hall : (Nat.toDigits 10 e.natAbs).all Char.isDigit = true :=
      List.all_eq_true.2 fun c hc => Digits.isDigit_toDigits hc
    simp only [readExponent, or_true, if_true, ne_eq, Nat.toDigits_ne_nil, not_false_eq_true, hall, and_self,
      List.head?_cons, Nat.ofDigitChars_ten_toDigits, Option.some.injEq]
    omega
  · have hall : (Nat.toDigits 10 e.natAbs).all Char.isDigit = true :=
      List.all_eq_true.2 fun c hc => Digits.isDigit_toDigits hc
    have hhead : ¬ some '+' = some '-' := by decide
    simp only [readExponent, or_true, if_true, ne_eq, Nat.toDigits_ne_nil, not_false_eq_true, hall, and_self,
      List.head?_cons, Nat.ofDigitChars_ten_toDigits, Option.some.injEq, hhead, if_false]
    omega

/-- Digits, a point when digits follow it, and an exponent. -/
theorem readUnsigned_parts (neg : Bool) {ip fp : List Char} (e : ℤ) (hne : ip ≠ [])
    (hip : ∀ c ∈ ip, c.isDigit = true) (hfp : ∀ c ∈ fp, c.isDigit = true) :
    readUnsigned neg (ip ++ ((if fp = [] then [] else '.' :: fp) ++ expPart e)) =
      some ⟨neg, Nat.ofDigitChars 10 (ip ++ fp) 0, e - fp.length⟩ := by
  have hE : ∀ c ∈ (expPart e).head?, c.isDigit = false ∧ c ≠ '.' := by
    intro c hc
    unfold expPart at hc
    split_ifs at hc with h0 hneg
    · cases hc
    all_goals
      obtain rfl := Option.some.inj hc
      exact ⟨rfl, by decide⟩
  have hstop : (expPart e).takeWhile Char.isDigit = [] ∧ (expPart e).dropWhile Char.isDigit = expPart e := by
    cases hexp : expPart e with
    | nil => exact ⟨rfl, rfl⟩
    | cons c cs =>
      have hc := (hE c (by simp [hexp])).1
      simp [hc]
  have hdot : Char.isDigit '.' = false := by decide
  split_ifs with hnil
  · subst hnil
    have ht : (ip ++ ([] ++ expPart e)).takeWhile Char.isDigit = ip := by
      rw [List.nil_append, List.takeWhile_append_of_pos hip, hstop.1, List.append_nil]
    have hd : (ip ++ ([] ++ expPart e)).dropWhile Char.isDigit = expPart e := by
      rw [List.nil_append, List.dropWhile_append_of_pos hip, hstop.2]
    have hhead : (expPart e).head? ≠ some '.' := fun h => (hE '.' h).2 rfl
    simp only [readUnsigned, ht, hd, hhead, if_false, readExponent_expPart]
    simp [hne]
  · have ht : (ip ++ ('.' :: fp ++ expPart e)).takeWhile Char.isDigit = ip := by
      rw [List.takeWhile_append_of_pos hip]
      simp [hdot]
    have hd : (ip ++ ('.' :: fp ++ expPart e)).dropWhile Char.isDigit = '.' :: (fp ++ expPart e) := by
      rw [List.dropWhile_append_of_pos hip]
      simp [hdot]
    have ht' : (fp ++ expPart e).takeWhile Char.isDigit = fp := by
      rw [List.takeWhile_append_of_pos hfp, hstop.1, List.append_nil]
    have hd' : (fp ++ expPart e).dropWhile Char.isDigit = expPart e := by
      rw [List.dropWhile_append_of_pos hfp, hstop.2]
    simp only [readUnsigned, ht, hd, List.head?_cons, if_true, List.tail_cons, ht', hd', readExponent_expPart]
    simp [hne]

/-- Every value is read back from its text, with its exponent. -/
theorem ofText_str (d : Decimal) : ofText d.str = some d := by
  have hip : ∀ c ∈ d.intPart, c.isDigit = true := fun c hc => isDigit_intPart hc
  have hfp : ∀ c ∈ d.fracPart, c.isDigit = true := fun c hc => isDigit_fracPart hc
  have hexp : d.leftDigits - d.dotPlace - d.fracPart.length = d.exp := by
    rw [length_fracPart]
    unfold leftDigits
    omega
  rw [ofText, str, String.toList_ofList, strChars, readChars_sign (head_of_digits d.intPart_ne_nil hip),
    readUnsigned_parts _ _ d.intPart_ne_nil hip hfp, read_parts, hexp]

theorem str_inj {d e : Decimal} (h : d.str = e.str) : d = e := by
  have hread := d.ofText_str
  rw [h, ofText_str] at hread
  exact (Option.some.inj hread).symm

example : (⟨false, 2000, -2⟩ : Decimal).str = "20.00" := by decide

example : (⟨true, 12, 3⟩ : Decimal).str = "-1.2E+4" := by decide

end Decimal
