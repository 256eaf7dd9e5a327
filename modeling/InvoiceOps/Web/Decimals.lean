import InvoiceOps.Lib.Rounding
import InvoiceOps.Web.Confirmation
import Mathlib.Data.List.DropRight

/-! The decimal arithmetic of the web client (`web/src/lib/confirmation.ts`). Its texts are digits with at most
twelve decimals, its numbers big integers with a scale. Comparison, sum and product are exact, also after the zeros
at the end of a result are dropped, so the receipt form adds up quantities as the service does, and an amount differs
from quantity times price exactly when the form says so. -/

namespace InvoiceOps

/-- `none` is `null`. -/
def calculatedAmount (quantity unitPrice : String) : Option String :=
  match decimalParts quantity, decimalParts unitPrice with
  | some a, some b => some (formatDecimal (a.digits * b.digits) (a.scale + b.scale))
  | _, _ => none

def amountMismatch (extractedAmount : Option String) (quantity unitPrice : String) : Bool :=
  match extractedAmount, calculatedAmount quantity unitPrice with
  | some extracted, some calculated => compareDecimal extracted calculated != some .eq
  | _, _ => false

/-- The checks of `ReceiptConfirmationLine` on the quantities of a line. -/
def quantitiesConfirmable (l : ReceiptLineForm) : Bool :=
  match Decimal.ofText l.receivedQuantity, Decimal.ofText l.acceptedQuantity, Decimal.ofText l.rejectedQuantity with
  | some received, some accepted, some rejected =>
    decide (Decimal.zero < received ∧ Decimal.zero < accepted ∧ Decimal.zero ≤ rejected) &&
      quantitiesReconcile received accepted rejected
  | _, _, _ => false

def DecimalParts.value (a : DecimalParts) : ℚ := a.digits / 10 ^ a.scale

def DecimalParts.toDecimal (a : DecimalParts) : Decimal := ⟨false, a.digits, -(a.scale : ℤ)⟩

theorem DecimalParts.toRat_toDecimal (a : DecimalParts) : a.toDecimal.toRat = a.value := by
  simp [toDecimal, value, Decimal.toRat, Decimal.int, zpow_neg, div_eq_mul_inv]

theorem ofText_toDecimal {s : String} {a : DecimalParts} (h : decimalParts s = some a) :
    Decimal.ofText s = some a.toDecimal := ofText_of_decimalParts h

theorem DecimalParts.value_nonneg (a : DecimalParts) : 0 ≤ a.value := by
  unfold value
  positivity

theorem DecimalParts.cast_adjusted (a : DecimalParts) {n : ℕ} (h : a.scale ≤ n) : (a.adjusted n : ℚ) = a.value * 10 ^ n := by
  obtain ⟨t, rfl⟩ := Nat.exists_eq_add_of_le h
  rw [adjusted, Nat.add_sub_cancel_left, value, pow_add]
  push_cast
  field_simp

/-- The text is written with these digits, the last `scale` of them after the point. -/
structure Plain (cs : List Char) (a : DecimalParts) : Prop where
  parts : ∃ ip fp : List Char, ip ≠ [] ∧ (∀ c ∈ ip, c.isDigit = true) ∧ (∀ c ∈ fp, c.isDigit = true) ∧
    cs = ip ++ (if fp = [] then [] else '.' :: fp) ∧ a = ⟨Nat.ofDigitChars 10 (ip ++ fp) 0, fp.length⟩

theorem takeWhile_digits {ip rest : List Char} (hip : ∀ c ∈ ip, c.isDigit = true) (hrest : Digits.Stops rest) :
    (ip ++ rest).takeWhile Char.isDigit = ip ∧ (ip ++ rest).dropWhile Char.isDigit = rest := by
  have hstop : rest.takeWhile Char.isDigit = [] ∧ rest.dropWhile Char.isDigit = rest := by
    cases rest with
    | nil => exact ⟨rfl, rfl⟩
    | cons c rest =>
      have hc : c.isDigit = false := hrest c (by simp)
      exact ⟨List.takeWhile_cons_of_neg (by simp [hc]), List.dropWhile_cons_of_neg (by simp [hc])⟩
  rw [List.takeWhile_append_of_pos hip, List.dropWhile_append_of_pos hip, hstop.1, hstop.2, List.append_nil]
  exact ⟨rfl, rfl⟩

/-- The client reads a text of at most twelve decimals. -/
theorem Plain.decimalParts {s : String} {a : DecimalParts} (h : Plain s.toList a) :
    decimalParts s = if a.scale ≤ 12 then some a else none := by
  obtain ⟨ip, fp, hne, hip, hfp, hs, rfl⟩ := h.parts
  by_cases hfp0 : fp = []
  · subst hfp0
    have hstop : Digits.Stops [] := by simp [Digits.Stops]
    obtain ⟨htake, hdrop⟩ := takeWhile_digits hip hstop
    rw [if_pos rfl] at hs
    rw [InvoiceOps.decimalParts, hs, htake, hdrop, List.append_nil]
    simp only [if_neg hne, List.length_nil, Nat.zero_le, if_true]
  · have hstop : Digits.Stops ('.' :: fp) := by simp [Digits.Stops]
    obtain ⟨htake, hdrop⟩ := takeWhile_digits hip hstop
    rw [if_neg hfp0] at hs
    rw [InvoiceOps.decimalParts, hs, htake, hdrop]
    simp only
    by_cases hlong : fp.length ≤ 12
    · rw [if_pos ⟨trivial, hne, hfp0, hlong, List.all_eq_true.2 hfp⟩, if_pos hlong]
    · rw [if_neg fun h => hlong h.2.2.2.1, if_neg hlong]

/-- The service reads any such text. -/
theorem Plain.ofText {s : String} {a : DecimalParts} (h : Plain s.toList a) : Decimal.ofText s = some a.toDecimal := by
  obtain ⟨ip, fp, hne, hip, hfp, hs, rfl⟩ := h.parts
  by_cases hfp0 : fp = []
  · subst hfp0
    have hsign := @Decimal.readChars_sign false ip (by simpa using Decimal.head_of_digits (r := []) hne hip)
    rw [if_pos rfl, List.append_nil] at hs
    rw [Decimal.ofText, hs, List.append_nil]
    exact hsign.trans (Decimal.readUnsigned_digits false hne hip)
  · have hsign := @Decimal.readChars_sign false _ (Decimal.head_of_digits (r := '.' :: fp) hne hip)
    rw [if_neg hfp0] at hs
    rw [Decimal.ofText, hs]
    exact hsign.trans (Decimal.readUnsigned_point false hne hip hfp)

theorem dropZeros_point {ip fp : List Char} (hfp : ∀ c ∈ fp, c.isDigit = true) (hne : fp ≠ []) :
    dropZeros (ip ++ '.' :: fp) =
      ip ++ (if fp.rdropWhile (· == '0') = [] then [] else '.' :: fp.rdropWhile (· == '0')) := by
  have hreverse : (ip ++ '.' :: fp).reverse = fp.reverse ++ '.' :: ip.reverse := by simp
  have hhead : (fp.reverse ++ '.' :: ip.reverse).head? = fp.reverse.head? := by
    rw [List.head?_append_of_ne_nil _ (by simpa using hne)]
  rw [dropZeros, hreverse, List.dropWhile_append]
  cases hrest : fp.reverse.dropWhile (· == '0') with
  | nil =>
    -- nothing but zeros after the point
    have hzero : fp.reverse.head? = some '0' := by
      obtain ⟨c, cs, hcs⟩ := List.exists_cons_of_ne_nil (show fp.reverse ≠ [] by simpa using hne)
      rw [List.dropWhile_eq_nil_iff] at hrest
      have hc := hrest c (by rw [hcs]; exact List.mem_cons_self ..)
      rw [hcs, List.head?_cons, eq_of_beq hc]
    have hempty : fp.rdropWhile (· == '0') = [] := by rw [List.rdropWhile, hrest, List.reverse_nil]
    rw [if_pos hempty, List.append_nil]
    simp [hhead, hzero]
  | cons c cs =>
    have hc : c ≠ '.' := by
      have hmem : c ∈ fp := by
        have hmem' : c ∈ fp.reverse.dropWhile (· == '0') := by rw [hrest]; exact List.mem_cons_self ..
        exact List.mem_reverse.1 ((List.dropWhile_suffix _).subset hmem')
      rintro rfl
      exact absurd (hfp _ hmem) (by decide)
    have hkept : fp.rdropWhile (· == '0') = (c :: cs).reverse := by rw [List.rdropWhile, hrest]
    rw [hkept, if_neg (by simp)]
    split
    · rename_i heq
      exact absurd (List.cons.inj heq).1 hc
    · simp

/-- What is left has no zero at its end, and the zeros that were there only shifted the digits. -/
theorem rdropWhile_zeros (ip : List Char) {fp : List Char} (hfp : ∀ c ∈ fp, c.isDigit = true) :
    ∃ zeros, fp = fp.rdropWhile (· == '0') ++ List.replicate zeros '0' ∧
      (fp.rdropWhile (· == '0') = [] ∨ Nat.ofDigitChars 10 (ip ++ fp.rdropWhile (· == '0')) 0 % 10 ≠ 0) := by
  obtain ⟨zeros, hsplit, hzeros⟩ : ∃ zeros, fp = fp.rdropWhile (· == '0') ++ zeros ∧ ∀ c ∈ zeros, c = '0' := by
    refine ⟨(fp.reverse.takeWhile (· == '0')).reverse, ?_, ?_⟩
    · rw [List.rdropWhile, ← List.reverse_append, List.takeWhile_append_dropWhile, List.reverse_reverse]
    · intro c hc
      exact eq_of_beq (List.mem_takeWhile_imp (p := (· == '0')) (List.mem_reverse.1 hc))
  refine ⟨zeros.length, ?_, ?_⟩
  · rw [List.eq_replicate_of_mem hzeros] at hsplit
    simpa using hsplit
  · by_cases hempty : fp.rdropWhile (· == '0') = []
    · exact Or.inl hempty
    · right
      have hlast := List.rdropWhile_last_not (· == '0') fp hempty
      have hdigit := hfp _ ((List.rdropWhile_prefix (· == '0') fp).subset (List.getLast_mem hempty))
      rw [← List.dropLast_append_getLast hempty, ← List.append_assoc, Nat.ofDigitChars_append]
      generalize (fp.rdropWhile (· == '0')).getLast hempty = c at hlast hdigit
      rw [Nat.ofDigitChars_cons, Nat.ofDigitChars_nil]
      have hne : c ≠ '0' := fun h => hlast (by rw [h]; rfl)
      have hbounds : 48 ≤ c.toNat ∧ c.toNat ≤ 57 := by
        simpa [Char.isDigit, UInt32.le_iff_toNat_le] using hdigit
      have hne48 : c.toNat ≠ 48 := fun h => hne (Char.toNat_inj.1 h)
      have hzero : '0'.toNat = 48 := rfl
      omega

theorem toList_toString (n : ℕ) : (toString n).toList = Nat.toDigits 10 n := by
  simp [Nat.toString_eq_repr, Nat.repr]

/-- A formatted number has the value of its digits, at most so many decimals, and no zero at the end of them. -/
theorem plain_formatDecimal (digits scale : ℕ) : ∃ a : DecimalParts, Plain (formatDecimal digits scale).toList a ∧
    a.value = digits / 10 ^ scale ∧ a.scale ≤ scale ∧ (a.scale = 0 ∨ a.digits % 10 ≠ 0) := by
  by_cases hscale : scale = 0
  · subst hscale
    refine ⟨⟨digits, 0⟩, ⟨Nat.toDigits 10 digits, [], Nat.toDigits_ne_nil, fun c hc => Digits.isDigit_toDigits hc, by simp,
      ?_, ?_⟩, rfl, le_rfl, Or.inl rfl⟩
    · rw [formatDecimal, if_pos rfl, toList_toString, if_pos rfl, List.append_nil]
    · rw [List.append_nil, Nat.ofDigitChars_ten_toDigits, List.length_nil]
  · set padded := List.replicate (scale + 1 - (Nat.toDigits 10 digits).length) '0' ++ Nat.toDigits 10 digits with hpadded
    have hlength : scale < padded.length := by
      rw [hpadded, List.length_append, List.length_replicate]
      omega
    have hdigit : ∀ c ∈ padded, c.isDigit = true := by
      intro c hc
      rcases List.mem_append.1 hc with hc | hc
      · rw [List.eq_of_mem_replicate hc]; rfl
      · exact Digits.isDigit_toDigits hc
    have hread : Nat.ofDigitChars 10 padded 0 = digits := by
      rw [hpadded, Nat.ofDigitChars_append, Nat.ofDigitChars_replicate_zero, Nat.mul_zero, Nat.ofDigitChars_ten_toDigits]
    set ip := padded.take (padded.length - scale) with hip
    set fp := padded.drop (padded.length - scale) with hfp
    have hjoin : ip ++ fp = padded := List.take_append_drop _ _
    have hfplength : fp.length = scale := by
      rw [hfp, List.length_drop]
      omega
    have hfpne : fp ≠ [] := fun h => hscale (by rw [← hfplength, h, List.length_nil])
    have hfpdigit : ∀ c ∈ fp, c.isDigit = true := fun c hc => hdigit c (List.mem_of_mem_drop hc)
    obtain ⟨zeros, hzeros, hlast⟩ := rdropWhile_zeros ip hfpdigit
    set kept := fp.rdropWhile (· == '0') with hkept
    have hkeptlength : kept.length + zeros = scale := by
      rw [← hfplength, hzeros, List.length_append, List.length_replicate]
    have hvalue : digits = 10 ^ zeros * Nat.ofDigitChars 10 (ip ++ kept) 0 := by
      rw [← hread, ← hjoin, hzeros, ← List.append_assoc, Nat.ofDigitChars_append, Nat.ofDigitChars_replicate_zero]
    refine ⟨⟨Nat.ofDigitChars 10 (ip ++ kept) 0, kept.length⟩, ⟨ip, kept, ?_, fun c hc => hdigit c (List.mem_of_mem_take hc),
      fun c hc => hfpdigit c ((List.rdropWhile_prefix _ fp).subset hc), ?_, rfl⟩, ?_,
      hkeptlength ▸ Nat.le_add_right _ _, ?_⟩
    · intro hnil
      have hzero := congrArg List.length hnil
      rw [hip, List.length_take, List.length_nil] at hzero
      omega
    · rw [formatDecimal, if_neg hscale]
      simp only [← hpadded, ← hip, ← hfp, String.toList_ofList]
      exact dropZeros_point hfpdigit hfpne
    · rw [DecimalParts.value, hvalue, ← hkeptlength, pow_add]
      push_cast
      field_simp
    · rcases hlast with hnil | hlast
      · exact Or.inl (by rw [hnil, List.length_nil])
      · exact Or.inr hlast

section
variable {left right : String} {a b : DecimalParts}

theorem scale_of_decimalParts {s : String} (h : decimalParts s = some a) : a.scale ≤ 12 := by
  unfold decimalParts at h
  simp only at h
  split at h
  · split_ifs at h
    obtain rfl := Option.some.inj h
    exact Nat.zero_le 12
  · split_ifs at h with hok
    obtain rfl := Option.some.inj h
    exact hok.2.2.2.1

theorem compareDecimal_value (ha : decimalParts left = some a) (hb : decimalParts right = some b) :
    compareDecimal left right = some (compare a.value b.value) := by
  simp only [compareDecimal, ha, hb]
  have hpow : (0 : ℚ) < 10 ^ max a.scale b.scale := by positivity
  have hleft := a.cast_adjusted (le_max_left a.scale b.scale)
  have hright := b.cast_adjusted (le_max_right a.scale b.scale)
  generalize a.adjusted (max a.scale b.scale) = m at hleft
  generalize b.adjusted (max a.scale b.scale) = n at hright
  rcases lt_trichotomy m n with h | h | h
  · have hlt : a.value < b.value := by
      rw [← mul_lt_mul_iff_left₀ hpow, ← hleft, ← hright]
      exact_mod_cast h
    rw [compare_lt_iff_lt.2 h, compare_lt_iff_lt.2 hlt]
  · have heq : a.value = b.value := by
      rw [← mul_left_inj' hpow.ne', ← hleft, ← hright, h]
    rw [compare_eq_iff_eq.2 h, compare_eq_iff_eq.2 heq]
  · have hgt : b.value < a.value := by
      rw [← mul_lt_mul_iff_left₀ hpow, ← hleft, ← hright]
      exact_mod_cast h
    rw [compare_gt_iff_gt.2 h, compare_gt_iff_gt.2 hgt]

theorem addDecimals_value (ha : decimalParts left = some a) (hb : decimalParts right = some b) :
    ∃ sum, decimalParts (addDecimals left right) = some sum ∧ sum.value = a.value + b.value := by
  obtain ⟨sum, hplain, hvalue, hscale, -⟩ := plain_formatDecimal
    (a.adjusted (max a.scale b.scale) + b.adjusted (max a.scale b.scale)) (max a.scale b.scale)
  have htwelve : sum.scale ≤ 12 := hscale.trans (max_le (scale_of_decimalParts ha) (scale_of_decimalParts hb))
  refine ⟨sum, ?_, ?_⟩
  · simp only [addDecimals, ha, hb]
    rw [hplain.decimalParts, if_pos htwelve]
  · rw [hvalue, Nat.cast_add, a.cast_adjusted (le_max_left _ _), b.cast_adjusted (le_max_right _ _)]
    field_simp

theorem calculatedAmount_value (ha : decimalParts left = some a) (hb : decimalParts right = some b) :
    ∃ product text, calculatedAmount left right = some text ∧ Plain text.toList product ∧
      product.value = a.value * b.value ∧ (product.scale = 0 ∨ product.digits % 10 ≠ 0) := by
  obtain ⟨product, hplain, hvalue, -, hlast⟩ := plain_formatDecimal (a.digits * b.digits) (a.scale + b.scale)
  refine ⟨product, _, ?_, hplain, ?_, hlast⟩
  · simp only [calculatedAmount, ha, hb]
  · rw [hvalue, DecimalParts.value, DecimalParts.value, pow_add]
    push_cast
    field_simp

/-- A number with more than twelve decimals that it needs is not the number of a text of the client. -/
theorem value_ne_of_scale (ha : a.scale ≤ 12) (hb : 12 < b.scale) (hlast : b.digits % 10 ≠ 0) : a.value ≠ b.value := by
  intro heq
  obtain ⟨t, ht⟩ : ∃ t, b.scale = a.scale + (t + 1) := ⟨b.scale - a.scale - 1, by omega⟩
  rw [DecimalParts.value, DecimalParts.value, div_eq_div_iff (by positivity) (by positivity), ht, pow_add, mul_comm (b.digits : ℚ),
    mul_left_comm, mul_right_inj' (by positivity)] at heq
  have hdigits : a.digits * 10 ^ (t + 1) = b.digits := by exact_mod_cast heq
  rw [← hdigits, pow_succ, ← mul_assoc, Nat.mul_mod_left] at hlast
  exact hlast rfl

theorem amountMismatch_iff {extracted : String} {e : DecimalParts} (he : decimalParts extracted = some e)
    (ha : decimalParts left = some a) (hb : decimalParts right = some b) :
    amountMismatch (some extracted) left right = true ↔ a.value * b.value ≠ e.value := by
  obtain ⟨product, text, htext, hplain, hvalue, hlast⟩ := calculatedAmount_value ha hb
  rw [← hvalue]
  simp only [amountMismatch, htext]
  by_cases hscale : product.scale ≤ 12
  · have hread : decimalParts text = some product := by rw [hplain.decimalParts, if_pos hscale]
    rw [compareDecimal_value he hread, bne_iff_ne, ne_eq, Option.some.injEq, compare_eq_iff_eq, ne_comm]
  · have hread : decimalParts text = none := by rw [hplain.decimalParts, if_neg hscale]
    have hne : e.value ≠ product.value :=
      value_ne_of_scale (scale_of_decimalParts he) (not_le.1 hscale) (hlast.resolve_left (by omega))
    have hnull : compareDecimal extracted text = none := by simp only [compareDecimal, he, hread]
    rw [hnull]
    exact ⟨fun _ => hne.symm, fun _ => rfl⟩

end

/-- The checks of the form on each field of a line. -/
def ReceiptLineForm.fieldsPass (l : ReceiptLineForm) : Bool :=
  identifier l.purchaseOrderLineNumber && identifier l.description && positiveDecimal l.receivedQuantity &&
    positiveDecimal l.acceptedQuantity && nonnegativeDecimal l.rejectedQuantity

structure QuantityParts (l : ReceiptLineForm) (received accepted rejected : DecimalParts) : Prop where
  positive : 0 < received.value ∧ 0 < accepted.value
  received : decimalParts l.receivedQuantity = some received
  accepted : decimalParts l.acceptedQuantity = some accepted
  rejected : decimalParts l.rejectedQuantity = some rejected

theorem positive_of_digits {s : String} (h : positiveDecimal s = true) : ∃ a, decimalParts s = some a ∧ 0 < a.value := by
  unfold positiveDecimal at h
  cases ha : decimalParts s with
  | none =>
    rw [ha] at h
    cases h
  | some a =>
    rw [ha, Option.any_some, decide_eq_true_iff] at h
    have hpos : 0 < a.digits := Nat.pos_of_ne_zero h
    refine ⟨a, rfl, ?_⟩
    unfold DecimalParts.value
    positivity

theorem quantityParts {l : ReceiptLineForm} (h : l.fieldsPass = true) :
    ∃ received accepted rejected, QuantityParts l received accepted rejected := by
  simp only [ReceiptLineForm.fieldsPass, Bool.and_eq_true] at h
  obtain ⟨⟨⟨-, hreceived⟩, haccepted⟩, hrejected⟩ := h
  obtain ⟨received, hr, hrpos⟩ := positive_of_digits hreceived
  obtain ⟨accepted, ha, hapos⟩ := positive_of_digits haccepted
  obtain ⟨rejected, hj⟩ := Option.isSome_iff_exists.1 hrejected
  exact ⟨received, accepted, rejected, ⟨hrpos, hapos⟩, hr, ha, hj⟩

section
variable {l : ReceiptLineForm} {received accepted rejected : DecimalParts}

theorem accepted_iff (h : QuantityParts l received accepted rejected) (hfields : l.fieldsPass = true) :
    l.accepted = true ↔ accepted.value + rejected.value = received.value := by
  obtain ⟨sum, hsum, hvalue⟩ := addDecimals_value h.accepted h.rejected
  have haccepted : l.accepted = (l.fieldsPass &&
      compareDecimal (addDecimals l.acceptedQuantity l.rejectedQuantity) l.receivedQuantity == some .eq) := rfl
  rw [haccepted, hfields, Bool.true_and, compareDecimal_value hsum h.received, beq_iff_eq, Option.some.injEq,
    compare_eq_iff_eq, hvalue]

/-- Where the sum needs no more than 28 digits the service accepts the same quantities. -/
theorem confirmable_iff (h : QuantityParts l received accepted rejected)
    (hfits : Decimal.Fits 28 (accepted.value + rejected.value)) :
    quantitiesConfirmable l = true ↔ accepted.value + rejected.value = received.value := by
  let _ := DecimalContext.standard
  have hround : (DecimalContext.add accepted.toDecimal rejected.toDecimal).toRat = accepted.value + rejected.value := by
    rw [DecimalContext.toRat_add, DecimalParts.toRat_toDecimal, DecimalParts.toRat_toDecimal]
    exact Decimal.roundRat_of_fits hfits
  have hsigns : Decimal.zero < received.toDecimal ∧ Decimal.zero < accepted.toDecimal ∧
      Decimal.zero ≤ rejected.toDecimal := by
    simp only [Decimal.lt_iff, Decimal.le_iff, Decimal.toRat_zero, DecimalParts.toRat_toDecimal]
    exact ⟨h.positive.1, h.positive.2, rejected.value_nonneg⟩
  simp only [quantitiesConfirmable, ofText_toDecimal h.received, ofText_toDecimal h.accepted, ofText_toDecimal h.rejected]
  rw [Bool.and_eq_true, decide_eq_true_iff, and_iff_right hsigns, quantitiesReconcile, decide_eq_true_iff, Decimal.numEq_iff]
  exact ⟨fun heq => hround.symm.trans (heq.trans received.toRat_toDecimal),
    fun heq => hround.trans (heq.trans received.toRat_toDecimal.symm)⟩

end

/-- The arithmetic of the client is exact on the texts it reads. Hence the form accepts a line whose fields pass
exactly when accepted and rejected quantity add up to the received one, as the service does where the sum has at most
28 digits, and it reports an amount exactly when it is not quantity times price. -/
theorem client_arithmetic_exact :
    (∀ left right a b, decimalParts left = some a → decimalParts right = some b →
      compareDecimal left right = some (compare a.value b.value) ∧
      (∃ sum, Decimal.ofText (addDecimals left right) = some sum ∧ sum.toRat = a.value + b.value) ∧
      (∃ text product, calculatedAmount left right = some text ∧ Decimal.ofText text = some product ∧
        product.toRat = a.value * b.value) ∧
      ∀ extracted e, decimalParts extracted = some e →
        (amountMismatch (some extracted) left right = true ↔ a.value * b.value ≠ e.value)) ∧
    ∀ l : ReceiptLineForm, l.fieldsPass = true → ∃ received accepted rejected,
      QuantityParts l received accepted rejected ∧
      (l.accepted = true ↔ accepted.value + rejected.value = received.value) ∧
      (Decimal.Fits 28 (accepted.value + rejected.value) → (l.accepted = true ↔ quantitiesConfirmable l = true)) := by
  refine ⟨fun left right a b ha hb => ⟨compareDecimal_value ha hb, ?_, ?_, fun extracted e he =>
    amountMismatch_iff he ha hb⟩, fun l hfields => ?_⟩
  · obtain ⟨sum, hsum, hvalue⟩ := addDecimals_value ha hb
    exact ⟨sum.toDecimal, ofText_toDecimal hsum, sum.toRat_toDecimal.trans hvalue⟩
  · obtain ⟨product, text, htext, hplain, hvalue, -⟩ := calculatedAmount_value ha hb
    exact ⟨text, product.toDecimal, htext, hplain.ofText, product.toRat_toDecimal.trans hvalue⟩
  · obtain ⟨received, accepted, rejected, h⟩ := quantityParts hfields
    have haccepted := accepted_iff h hfields
    exact ⟨received, accepted, rejected, h, haccepted, fun hfits => haccepted.trans (confirmable_iff h hfits).symm⟩

example : calculatedAmount "12.50" "8" = some "100" ∧ calculatedAmount "20" "30" = some "600" := by decide

/-- Two taps are received, and one and a half of them accepted. -/
def halfTapLine : ReceiptLineForm := ⟨"1", "Tap", "2", "1.5", "0.50"⟩

theorem client_arithmetic_exact_taps :
    (compareDecimal "12.50" "8" = some (compare (DecimalParts.mk 1250 2).value (DecimalParts.mk 8 0).value) ∧
      (amountMismatch (some "100") "12.50" "8" = true ↔
        (DecimalParts.mk 1250 2).value * (DecimalParts.mk 8 0).value ≠ (DecimalParts.mk 100 0).value)) ∧
    halfTapLine.fieldsPass = true ∧ halfTapLine.accepted = true ∧ quantitiesConfirmable halfTapLine = true := by
  have hfields : halfTapLine.fieldsPass = true := by decide +kernel
  have haccepted : halfTapLine.accepted = true := by decide +kernel
  have harithmetic := client_arithmetic_exact.1 "12.50" "8" ⟨1250, 2⟩ ⟨8, 0⟩ (by decide +kernel) (by decide +kernel)
  obtain ⟨received, accepted, rejected, hparts, -, hservice⟩ := client_arithmetic_exact.2 halfTapLine hfields
  refine ⟨⟨harithmetic.1, harithmetic.2.2.2 "100" ⟨100, 0⟩ (by decide +kernel)⟩, hfields, haccepted, (hservice ?_).1 haccepted⟩
  have hsum : accepted.value + rejected.value = received.value := (accepted_iff hparts hfields).1 haccepted
  have htwo : decimalParts halfTapLine.receivedQuantity = some ⟨2, 0⟩ := by decide +kernel
  obtain rfl := Option.some.inj (htwo.symm.trans hparts.received)
  rw [hsum]
  exact ⟨2, 0, by norm_num, by norm_num [DecimalParts.value]⟩

end InvoiceOps
