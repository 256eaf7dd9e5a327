import InvoiceOps.Lib.DecimalContext
import InvoiceOps.Schemas.Matching

/-! Financial validation of one invoice (`matching/validation.py`). `validateInvoiceFinancials`
lists its checks in the order the source appends them, and computes in the decimal context in force.
Several of them are only emitted under a condition; `validate_clean_iff` says what the invoice satisfies
when none of the emitted ones failed. -/

namespace InvoiceOps

open DecimalContext (multiply absDiff rounded roundedSum)

/-- `_check`: a decided check of the invoice. -/
def check (code : ReasonCode) (passed : Bool) (expected actual : Option String)
    (tolerance : Option Decimal) (message : String) (invoiceLineIndex : Option ℕ := none)
    (evidence : List EvidenceSpan := []) : ValidationCheck where
  code := code
  status := CheckStatus.of passed
  severity := CheckSeverity.of passed
  expected := expected
  actual := actual
  tolerance := tolerance.map Decimal.text
  message := message
  invoiceLineIndex := invoiceLineIndex
  evidence := evidence

/-- The check that a present value is not negative; nothing is emitted when it is not. -/
def negativeCheck (subject label : String) (value : Option Decimal) (index : Option ℕ)
    (evidence : List EvidenceSpan) : List ValidationCheck :=
  match value with
  | none => []
  | some v =>
    if v < Decimal.zero then
      [check .negativeAmount false (some ("non-negative " ++ label)) (some v.text) none
        (subject ++ label ++ " is negative and requires review.") index evidence]
    else []

def lineEvidence (line : InvoiceLine) : List EvidenceSpan :=
  line.quantity.evidence ++ line.unitPrice.evidence ++ line.lineTotal.evidence

/-- Quantity, unit price and line total of a line that has all three. -/
def usableLine (line : InvoiceLine) : Option (Decimal × Decimal × Decimal) :=
  match line.quantity.extractedValue, line.unitPrice.extractedValue, line.lineTotal.extractedValue with
  | some q, some p, some t => some (q, p, t)
  | _, _, _ => none

def arithmeticCheck [DecimalContext] (policy : Tolerances) (index : ℕ) (line : InvoiceLine) : List ValidationCheck :=
  match usableLine line with
  | none => []
  | some (q, p, t) =>
    let expected := multiply q p
    let passed := decide (absDiff expected t ≤ policy.amountAbsolute)
    [check .invoiceLineArithmeticMismatch passed (some expected.text) (some t.text)
      (some policy.amountAbsolute)
      (if passed then "Invoice line arithmetic is within tolerance."
        else "Invoice quantity multiplied by unit price differs from line total.")
      (some index) (lineEvidence line)]

/-- The checks of one pass of the line loop. The first one is emitted for every line. -/
def lineChecks [DecimalContext] (policy : Tolerances) (index : ℕ) (line : InvoiceLine) : List ValidationCheck :=
  let usable := (usableLine line).isSome
  [check .invoiceSchemaIncomplete usable (some "quantity, unit price and line total present")
    (some (if usable then "complete" else "missing or ambiguous numeric value")) none
    (if usable then "Invoice line contains all required numeric values."
      else "Invoice line is missing a required numeric value.")
    (some index) (lineEvidence line)] ++
  negativeCheck "Invoice line " "quantity" line.quantity.extractedValue (some index)
    line.quantity.evidence ++
  negativeCheck "Invoice line " "unit price" line.unitPrice.extractedValue (some index)
    line.unitPrice.evidence ++
  negativeCheck "Invoice line " "line total" line.lineTotal.extractedValue (some index)
    line.lineTotal.evidence ++
  arithmeticCheck policy index line

def usableLineTotals (invoice : Invoice) : List Decimal :=
  invoice.lineItems.filterMap fun line => (usableLine line).map fun u => u.2.2

def issueChecks (invoice : Invoice) : List ValidationCheck :=
  if invoice.extractionIssues = [] then []
  else [check .extractionRowAssociationUnresolved false (some "resolved row association")
    (some "unresolved") none "Hybrid invoice row association requires review."]

def currencyPresentCheck (invoice : Invoice) : ValidationCheck :=
  let present := decide (invoice.currency.status = .extracted) && invoice.currency.value.isSome
  check .invoiceSchemaIncomplete present (some "currency present") invoice.currency.value none
    (if present then "Invoice currency is present." else "Invoice currency is missing or ambiguous.")
    none invoice.currency.evidence

def totalPresentCheck (invoice : Invoice) : ValidationCheck :=
  let total := invoice.total.extractedValue
  check .invoiceSchemaIncomplete total.isSome (some "total present") (total.map Decimal.text) none
    (if total.isSome then "Invoice total is present." else "Invoice total is missing or ambiguous.")
    none invoice.total.evidence

def usableLineCheck (invoice : Invoice) : ValidationCheck :=
  let totals := usableLineTotals invoice
  check .invoiceSchemaIncomplete (decide (totals ≠ [])) (some "at least one usable line")
    (some (toString totals.length)) none
    (if totals ≠ [] then "Invoice contains at least one usable line."
      else "Invoice does not contain a usable line item.")

/-- The subtotal is compared with the lines only when there is a usable line. -/
def subtotalChecks [DecimalContext] (policy : Tolerances) (invoice : Invoice) : List ValidationCheck :=
  match invoice.subtotal.extractedValue with
  | none => [check .invoiceSchemaIncomplete false (some "subtotal present") none none
      "Invoice subtotal is missing or ambiguous." none invoice.subtotal.evidence]
  | some subtotal =>
    if usableLineTotals invoice = [] then []
    else
      let expected := DecimalContext.sum (usableLineTotals invoice)
      let passed := decide (absDiff expected subtotal ≤ policy.amountAbsolute)
      [check .invoiceSubtotalMismatch passed (some expected.text) (some subtotal.text)
        (some policy.amountAbsolute)
        (if passed then "Invoice subtotal is within tolerance."
          else "Invoice subtotal differs from the sum of usable line totals.")
        none invoice.subtotal.evidence]

def taxChecks (invoice : Invoice) : List ValidationCheck :=
  match invoice.tax.extractedValue with
  | none => [check .invoiceSchemaIncomplete false (some "tax present") none none
      "Invoice tax is missing or ambiguous." none invoice.tax.evidence]
  | some _ => []

/-- The total is compared only when subtotal, tax and total are all present. -/
def totalChecks [DecimalContext] (policy : Tolerances) (invoice : Invoice) : List ValidationCheck :=
  match invoice.subtotal.extractedValue, invoice.tax.extractedValue, invoice.total.extractedValue with
  | some subtotal, some tax, some total =>
    let expected := DecimalContext.add subtotal tax
    let passed := decide (absDiff expected total ≤ policy.amountAbsolute)
    [check .invoiceTotalMismatch passed (some expected.text) (some total.text)
      (some policy.amountAbsolute)
      (if passed then "Invoice total is within tolerance."
        else "Invoice total differs from subtotal plus tax.")
      none (invoice.subtotal.evidence ++ invoice.tax.evidence ++ invoice.total.evidence)]
  | _, _, _ => []

def validateInvoiceFinancials [DecimalContext] (invoice : Invoice) (policy : Tolerances) : List ValidationCheck :=
  issueChecks invoice ++
  [currencyPresentCheck invoice, totalPresentCheck invoice] ++
  invoice.lineItems.zipIdx.flatMap (fun li => lineChecks policy li.2 li.1) ++
  [usableLineCheck invoice] ++
  subtotalChecks policy invoice ++
  taxChecks invoice ++
  negativeCheck "Invoice " "subtotal" invoice.subtotal.extractedValue none invoice.subtotal.evidence ++
  negativeCheck "Invoice " "tax" invoice.tax.extractedValue none invoice.tax.evidence ++
  negativeCheck "Invoice " "total" invoice.total.extractedValue none invoice.total.evidence ++
  totalChecks policy invoice

/-- The field is extracted with a non-negative value `v`. -/
def HoldsNonneg (f : ExtractedField Decimal) (v : Decimal) : Prop := f.Holds v ∧ 0 ≤ v.toRat

/-- One line is complete, non-negative, and its arithmetic agrees within the tolerance. -/
def LineOk [DecimalContext] (policy : Tolerances) (line : InvoiceLine) : Prop :=
  ∃ q p t, HoldsNonneg line.quantity q ∧ HoldsNonneg line.unitPrice p ∧
    HoldsNonneg line.lineTotal t ∧ |rounded (rounded (q.toRat * p.toRat) - t.toRat)| ≤ policy.amountAbsolute.toRat

/-- The sum of the line totals of all lines. -/
def lineTotalSum [DecimalContext] (invoice : Invoice) : ℚ :=
  roundedSum (invoice.lineItems.map fun line => (line.lineTotal.value.map Decimal.toRat).getD 0)

/-- What a clean invoice satisfies. In exact arithmetic `rounded` changes nothing. -/
structure FinancialsOk [DecimalContext] (invoice : Invoice) (policy : Tolerances) : Prop where
  issues : invoice.extractionIssues = []
  currency : invoice.currency.status = .extracted
  nonempty : invoice.lineItems ≠ []
  lines : ∀ line ∈ invoice.lineItems, LineOk policy line
  header : ∃ subtotal tax total, HoldsNonneg invoice.subtotal subtotal ∧
    HoldsNonneg invoice.tax tax ∧ HoldsNonneg invoice.total total ∧
    |rounded (lineTotalSum invoice - subtotal.toRat)| ≤ policy.amountAbsolute.toRat ∧
    |rounded (rounded (subtotal.toRat + tax.toRat) - total.toRat)| ≤ policy.amountAbsolute.toRat

@[simp] theorem status_check {code : ReasonCode} {passed : Bool} {e a : Option String}
    {t : Option Decimal} {m : String} {i : Option ℕ} {ev : List EvidenceSpan} :
    (check code passed e a t m i ev).status = CheckStatus.of passed := rfl

@[simp] theorem code_check {code : ReasonCode} {passed : Bool} {e a : Option String}
    {t : Option Decimal} {m : String} {i : Option ℕ} {ev : List EvidenceSpan} :
    (check code passed e a t m i ev).code = code := rfl

theorem clean_negativeCheck {s l : String} {v : Option Decimal} {i : Option ℕ}
    {ev : List EvidenceSpan} :
    Clean (negativeCheck s l v i ev) ↔ ∀ d, v = some d → 0 ≤ d.toRat := by
  cases v with
  | none => simp [negativeCheck]
  | some d =>
    simp only [negativeCheck, Option.some.injEq, forall_eq']
    split_ifs with h
    · simpa [Decimal.lt_iff] using h
    · simpa [Decimal.lt_iff] using h

theorem usableLine_eq_some {line : InvoiceLine} {q p t : Decimal} :
    usableLine line = some (q, p, t) ↔
      line.quantity.Holds q ∧ line.unitPrice.Holds p ∧ line.lineTotal.Holds t := by
  rw [← ExtractedField.extractedValue_eq_some, ← ExtractedField.extractedValue_eq_some,
    ← ExtractedField.extractedValue_eq_some]
  unfold usableLine
  split <;> simp_all

theorem clean_lineChecks [DecimalContext] {policy : Tolerances} {index : ℕ} {line : InvoiceLine} :
    Clean (lineChecks policy index line) ↔ LineOk policy line := by
  simp only [lineChecks, clean_append, clean_cons, clean_nil, and_true, status_check,
    CheckStatus.of_eq_passed, clean_negativeCheck, ExtractedField.extractedValue_eq_some]
  constructor
  · rintro ⟨⟨⟨⟨husable, hq⟩, hp⟩, ht⟩, harith⟩
    obtain ⟨⟨q, p, t⟩, hu⟩ := Option.isSome_iff_exists.1 husable
    obtain ⟨hq', hp', ht'⟩ := usableLine_eq_some.1 hu
    refine ⟨q, p, t, ⟨hq', hq q hq'⟩, ⟨hp', hp p hp'⟩, ⟨ht', ht t ht'⟩, ?_⟩
    simpa [arithmeticCheck, hu, Decimal.le_iff] using harith
  · rintro ⟨q, p, t, ⟨hq, hq0⟩, ⟨hp, hp0⟩, ⟨ht, ht0⟩, harith⟩
    have hu : usableLine line = some (q, p, t) := usableLine_eq_some.2 ⟨hq, hp, ht⟩
    have huniq : ∀ {f : ExtractedField Decimal} {a b : Decimal}, f.Holds a → f.Holds b → a = b :=
      fun ha hb => Option.some.inj (ha.2.symm.trans hb.2)
    refine ⟨⟨⟨⟨by simp [hu], ?_⟩, ?_⟩, ?_⟩, ?_⟩
    · intro d hd; rwa [huniq hd hq]
    · intro d hd; rwa [huniq hd hp]
    · intro d hd; rwa [huniq hd ht]
    · simpa [arithmeticCheck, hu, Decimal.le_iff] using harith

theorem clean_lines [DecimalContext] {policy : Tolerances} {invoice : Invoice} :
    Clean (invoice.lineItems.zipIdx.flatMap fun li => lineChecks policy li.2 li.1) ↔
      ∀ line ∈ invoice.lineItems, LineOk policy line := by
  rw [clean_flatMap]
  simp only [clean_lineChecks]
  constructor
  · intro h line hl
    obtain ⟨i, hi, rfl⟩ := List.mem_iff_getElem.1 hl
    exact h (_, i) (List.mem_zipIdx_iff_getElem?.2 (List.getElem?_eq_getElem hi))
  · intro h li hli
    exact h _ (List.mem_of_getElem? (List.mem_zipIdx_iff_getElem?.1 hli))

/-- When every line is usable, the usable totals are all line totals. -/
theorem usableLineTotals_of_lines [DecimalContext] {policy : Tolerances} {invoice : Invoice}
    (h : ∀ line ∈ invoice.lineItems, LineOk policy line) :
    (usableLineTotals invoice).map Decimal.toRat =
      invoice.lineItems.map fun line => (line.lineTotal.value.map Decimal.toRat).getD 0 := by
  unfold usableLineTotals
  generalize invoice.lineItems = lines at h
  induction lines with
  | nil => rfl
  | cons line lines ih =>
    obtain ⟨q, p, t, hq, hp, ht, -⟩ := h line (by simp)
    have hu : usableLine line = some (q, p, t) := usableLine_eq_some.2 ⟨hq.1, hp.1, ht.1⟩
    have htail := ih fun l hl => h l (by simp [hl])
    simp only [List.filterMap_cons, hu, Option.map_some, List.map_cons, htail, ht.1.2, Option.getD_some]

theorem clean_issueChecks {invoice : Invoice} :
    Clean (issueChecks invoice) ↔ invoice.extractionIssues = [] := by
  unfold issueChecks
  split_ifs with h <;> simp [h]

theorem currencyPresentCheck_passed {invoice : Invoice} :
    (currencyPresentCheck invoice).status = .passed ↔ invoice.currency.status = .extracted := by
  simp only [currencyPresentCheck, status_check, CheckStatus.of_eq_passed, Bool.and_eq_true,
    decide_eq_true_eq]
  exact ⟨fun h => h.1, fun h => ⟨h, (invoice.currency.extracted_contract h).1⟩⟩

theorem clean_taxChecks {invoice : Invoice} :
    Clean (taxChecks invoice) ↔ ∃ tax, invoice.tax.Holds tax := by
  simp only [taxChecks, ← ExtractedField.extractedValue_eq_some]
  cases invoice.tax.extractedValue <;> simp

theorem clean_subtotalChecks [DecimalContext] {policy : Tolerances} {invoice : Invoice} :
    Clean (subtotalChecks policy invoice) ↔ ∃ subtotal, invoice.subtotal.Holds subtotal ∧
      (usableLineTotals invoice ≠ [] →
        |rounded (roundedSum ((usableLineTotals invoice).map Decimal.toRat) - subtotal.toRat)| ≤
          policy.amountAbsolute.toRat) := by
  simp only [subtotalChecks, ← ExtractedField.extractedValue_eq_some]
  cases invoice.subtotal.extractedValue with
  | none => simp
  | some subtotal =>
    by_cases h : usableLineTotals invoice = [] <;> simp [h, Decimal.le_iff]

theorem clean_totalChecks [DecimalContext] {policy : Tolerances} {invoice : Invoice} {s t T : Decimal}
    (hs : invoice.subtotal.Holds s) (ht : invoice.tax.Holds t) (hT : invoice.total.Holds T) :
    Clean (totalChecks policy invoice) ↔
      |rounded (rounded (s.toRat + t.toRat) - T.toRat)| ≤ policy.amountAbsolute.toRat := by
  rw [← ExtractedField.extractedValue_eq_some] at hs ht hT
  simp [totalChecks, hs, ht, hT, Decimal.le_iff]

/-- No emitted check failed exactly when the invoice is complete, non-negative and consistent:
every condition under which a check is left out is covered by another check that fails. -/
theorem validate_clean_iff [DecimalContext] {invoice : Invoice} {policy : Tolerances} :
    Clean (validateInvoiceFinancials invoice policy) ↔ FinancialsOk invoice policy := by
  simp only [validateInvoiceFinancials, clean_append, clean_cons, clean_nil, and_true,
    clean_issueChecks, currencyPresentCheck_passed, clean_lines, clean_subtotalChecks,
    clean_taxChecks, clean_negativeCheck, ExtractedField.extractedValue_eq_some, totalPresentCheck,
    usableLineCheck, status_check, CheckStatus.of_eq_passed, decide_eq_true_eq]
  constructor
  · rintro ⟨⟨⟨⟨⟨⟨⟨⟨⟨hissues, hcur, htotal⟩, hlines⟩, husable⟩, s, hs, hsum⟩, t, ht⟩, hs0⟩, ht0⟩, hT0⟩, htot⟩
    obtain ⟨T, hT⟩ := Option.isSome_iff_exists.1 htotal
    rw [ExtractedField.extractedValue_eq_some] at hT
    have htotals := usableLineTotals_of_lines hlines
    refine ⟨hissues, hcur, ?_, hlines, s, t, T, ⟨hs, hs0 s hs⟩, ⟨ht, ht0 t ht⟩, ⟨hT, hT0 T hT⟩,
      ?_, (clean_totalChecks hs ht hT).1 htot⟩
    · intro h0
      rw [h0, List.map_nil, List.map_eq_nil_iff] at htotals
      exact husable htotals
    · rw [lineTotalSum, ← htotals]; exact hsum husable
  · rintro ⟨hissues, hcur, hne, hlines, s, t, T, ⟨hs, hs0⟩, ⟨ht, ht0⟩, ⟨hT, hT0⟩, hsum, htot⟩
    have htotals := usableLineTotals_of_lines hlines
    have huniq : ∀ {f : ExtractedField Decimal} {a b : Decimal}, f.Holds a → f.Holds b → a = b :=
      fun ha hb => Option.some.inj (ha.2.symm.trans hb.2)
    have husable : usableLineTotals invoice ≠ [] := by
      intro h0
      rw [h0, List.map_nil] at htotals
      exact hne (List.map_eq_nil_iff.1 htotals.symm)
    refine ⟨⟨⟨⟨⟨⟨⟨⟨⟨hissues, hcur, ?_⟩, hlines⟩, husable⟩, s, hs, fun _ => by rw [htotals]; exact hsum⟩,
      t, ht⟩, ?_⟩, ?_⟩, ?_⟩, (clean_totalChecks hs ht hT).2 htot⟩
    · rw [ExtractedField.extractedValue_eq_some.2 hT]; rfl
    · intro d hd; rwa [huniq hd hs]
    · intro d hd; rwa [huniq hd ht]
    · intro d hd; rwa [huniq hd hT]

/-- Every line is mentioned by some check, whether that check passed or failed. -/
theorem exists_check_of_line [DecimalContext] {invoice : Invoice} {policy : Tolerances} {i : ℕ}
    (hi : i < invoice.lineItems.length) :
    ∃ c ∈ validateInvoiceFinancials invoice policy, c.invoiceLineIndex = some i := by
  have hmem : (invoice.lineItems[i], i) ∈ invoice.lineItems.zipIdx :=
    List.mem_zipIdx_iff_getElem?.2 (List.getElem?_eq_getElem hi)
  have hhead : ∃ c ∈ lineChecks policy i invoice.lineItems[i], c.invoiceLineIndex = some i := by
    simp only [lineChecks, List.cons_append, List.mem_cons]
    exact ⟨_, Or.inl rfl, rfl⟩
  obtain ⟨c, hc, hci⟩ := hhead
  refine ⟨c, ?_, hci⟩
  have hline : c ∈ invoice.lineItems.zipIdx.flatMap fun li => lineChecks policy li.2 li.1 :=
    List.mem_flatMap.2 ⟨_, hmem, hc⟩
  simp only [validateInvoiceFinancials, List.mem_append, hline, or_true, true_or]

/-- The kinds of checks the validation makes. -/
def financialCodes : List ReasonCode :=
  [.extractionRowAssociationUnresolved, .invoiceSchemaIncomplete, .invoiceLineArithmeticMismatch,
    .invoiceSubtotalMismatch, .invoiceTotalMismatch, .negativeAmount]

theorem code_negativeCheck {s l : String} {v : Option Decimal} {i : Option ℕ} {ev : List EvidenceSpan} :
    ∀ c ∈ negativeCheck s l v i ev, c.code ∈ financialCodes := by
  unfold negativeCheck
  split
  · simp
  · split_ifs <;> simp [financialCodes]

theorem code_lineChecks [DecimalContext] {policy : Tolerances} {index : ℕ} {line : InvoiceLine} :
    ∀ c ∈ lineChecks policy index line, c.code ∈ financialCodes := by
  have harith : ∀ c ∈ arithmeticCheck policy index line, c.code ∈ financialCodes := by
    unfold arithmeticCheck
    split <;> simp [financialCodes]
  intro c hc
  simp only [lineChecks, List.mem_append, List.mem_singleton] at hc
  rcases hc with (((rfl | hc) | hc) | hc) | hc
  · simp [financialCodes]
  · exact code_negativeCheck c hc
  · exact code_negativeCheck c hc
  · exact code_negativeCheck c hc
  · exact harith c hc

theorem code_validate [DecimalContext] {invoice : Invoice} {policy : Tolerances} :
    ∀ c ∈ validateInvoiceFinancials invoice policy, c.code ∈ financialCodes := by
  have hissue : ∀ c ∈ issueChecks invoice, c.code ∈ financialCodes := by
    unfold issueChecks
    split_ifs <;> simp [financialCodes]
  have hsubtotal : ∀ c ∈ subtotalChecks policy invoice, c.code ∈ financialCodes := by
    unfold subtotalChecks
    split
    · simp [financialCodes]
    · split_ifs <;> simp [financialCodes]
  have htax : ∀ c ∈ taxChecks invoice, c.code ∈ financialCodes := by
    unfold taxChecks
    split <;> simp [financialCodes]
  have htotal : ∀ c ∈ totalChecks policy invoice, c.code ∈ financialCodes := by
    unfold totalChecks
    split <;> simp [financialCodes]
  intro c hc
  simp only [validateInvoiceFinancials, List.mem_append, List.mem_flatMap, List.mem_cons, List.not_mem_nil,
    or_false] at hc
  rcases hc with ((((((((hc | rfl | rfl) | ⟨_, _, hc⟩) | rfl) | hc) | hc) | hc) | hc) | hc) | hc
  · exact hissue c hc
  · simp [currencyPresentCheck, financialCodes]
  · simp [totalPresentCheck, financialCodes]
  · exact code_lineChecks c hc
  · simp [usableLineCheck, financialCodes]
  · exact hsubtotal c hc
  · exact htax c hc
  · exact code_negativeCheck c hc
  · exact code_negativeCheck c hc
  · exact code_negativeCheck c hc
  · exact htotal c hc

end InvoiceOps
