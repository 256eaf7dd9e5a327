import InvoiceOps.Matching.Engine
import Mathlib.Algebra.Order.Field.Rat
import Mathlib.Tactic.Positivity

/-! Which invoices are shown to the vision model (`extraction/hybrid/router.py`). The router and the financial validation of
the matching look at the same fields, each in its own way; with the same tolerance they agree on what is wrong with the
amounts. -/

namespace InvoiceOps

open DecimalContext (multiply absDiff)

inductive RoutingReason
  | criticalFieldMissing
  | criticalFieldAmbiguous
  | noLineItems
  | incompleteLineItems
  | headerArithmeticContradiction
  | lineArithmeticContradiction
  | ocrHeavyDocument
deriving DecidableEq, Repr

def share (flags : List Bool) : ℚ := if flags = [] then 0 else flags.count true / flags.length

theorem share_bounds (flags : List Bool) : 0 ≤ share flags ∧ share flags ≤ 1 := by
  unfold share
  split_ifs with hempty
  · exact ⟨le_rfl, zero_le_one⟩
  · have hpos : (0 : ℚ) < flags.length := by exact_mod_cast List.length_pos_iff.2 hempty
    refine ⟨by positivity, (div_le_one hpos).2 ?_⟩
    exact_mod_cast List.count_le_length

/-- A share is between none and all. -/
structure RoutingDecision where
  invokeVlm : Bool
  reasons : List RoutingReason
  deterministicCompleteness : ℚ
  criticalFieldCompleteness : ℚ
  completeLineItemRatio : ℚ
  deterministic_bounds : 0 ≤ deterministicCompleteness ∧ deterministicCompleteness ≤ 1
  critical_bounds : 0 ≤ criticalFieldCompleteness ∧ criticalFieldCompleteness ≤ 1
  line_bounds : 0 ≤ completeLineItemRatio ∧ completeLineItemRatio ≤ 1

def isExtracted (status : ExtractionStatus) : Bool := decide (status = .extracted)

/-- The statuses of `CRITICAL_FIELDS`. -/
def criticalStatuses (invoice : Invoice) : List ExtractionStatus :=
  [invoice.invoiceNumber.status, invoice.invoiceDate.status, invoice.currency.status, invoice.total.status]

/-- The statuses of `HEADER_FIELDS`. -/
def headerStatuses (invoice : Invoice) : List ExtractionStatus :=
  [invoice.invoiceNumber.status, invoice.invoiceDate.status, invoice.currency.status, invoice.subtotal.status,
    invoice.tax.status, invoice.total.status]

/-- The statuses of `LINE_FIELDS`. -/
def lineStatuses (line : InvoiceLine) : List ExtractionStatus :=
  [line.description.status, line.quantity.status, line.unitPrice.status, line.lineTotal.status]

def lineComplete (line : InvoiceLine) : Bool := (lineStatuses line).all isExtracted

def headerContradicts [DecimalContext] (tolerance : Decimal) (invoice : Invoice) : Bool :=
  match invoice.subtotal.extractedValue, invoice.tax.extractedValue, invoice.total.extractedValue with
  | some subtotal, some tax, some total => decide (tolerance < absDiff (DecimalContext.add subtotal tax) total)
  | _, _, _ => false

def lineContradicts [DecimalContext] (tolerance : Decimal) (line : InvoiceLine) : Bool :=
  match usableLine line with
  | some (quantity, unitPrice, lineTotal) => decide (tolerance < absDiff (multiply quantity unitPrice) lineTotal)
  | none => false

/-- Enough of the pages were read by OCR. -/
def ocrHeavy (ocrHeavyPageRatio : ℚ) (sources : List TextSource) : Bool :=
  decide (sources ≠ []) && decide (ocrHeavyPageRatio ≤ share (sources.map fun source => decide (source = .ocr)))

/-- The reasons in the order they are found. -/
def routingReasons [DecimalContext] (invoice : Invoice) (sources : List TextSource) (tolerance : Decimal)
    (ocrHeavyPageRatio : ℚ) : List RoutingReason :=
  (if (criticalStatuses invoice).any (· = .missing) then [RoutingReason.criticalFieldMissing] else []) ++
  (if (criticalStatuses invoice).any (· = .ambiguous) then [RoutingReason.criticalFieldAmbiguous] else []) ++
  (if invoice.lineItems = [] then [RoutingReason.noLineItems]
    else if invoice.lineItems.any fun line => !lineComplete line then [RoutingReason.incompleteLineItems] else []) ++
  (if headerContradicts tolerance invoice then [RoutingReason.headerArithmeticContradiction] else []) ++
  (if invoice.lineItems.any (lineContradicts tolerance) then [RoutingReason.lineArithmeticContradiction] else []) ++
  (if ocrHeavy ocrHeavyPageRatio sources then [RoutingReason.ocrHeavyDocument] else [])

/-- `route_extraction`, with the source of each page. -/
def routeExtraction [DecimalContext] (invoice : Invoice) (sources : List TextSource) (tolerance : Decimal)
    (ocrHeavyPageRatio : ℚ) : RoutingDecision :=
  let reasons := (routingReasons invoice sources tolerance ocrHeavyPageRatio).dedup
  { invokeVlm := decide (reasons ≠ [])
    reasons := reasons
    deterministicCompleteness :=
      share ((headerStatuses invoice ++ invoice.lineItems.flatMap lineStatuses).map isExtracted)
    criticalFieldCompleteness := share ((criticalStatuses invoice).map isExtracted)
    completeLineItemRatio := share (invoice.lineItems.map lineComplete)
    deterministic_bounds := share_bounds _
    critical_bounds := share_bounds _
    line_bounds := share_bounds _ }

section

variable {invoice : Invoice} {sources : List TextSource} {tolerance : Decimal} {ratio : ℚ} {policy : Tolerances}

/-- The parts of an invoice the router is content with. -/
structure Quiet [DecimalContext] (invoice : Invoice) (sources : List TextSource) (tolerance : Decimal) (ratio : ℚ) :
    Prop where
  critical : ∀ status ∈ criticalStatuses invoice, status = .extracted
  lines : invoice.lineItems ≠ []
  complete : ∀ line ∈ invoice.lineItems, ∀ status ∈ lineStatuses line, status = .extracted
  header : headerContradicts tolerance invoice = false
  arithmetic : ∀ line ∈ invoice.lineItems, lineContradicts tolerance line = false
  pages : ocrHeavy ratio sources = false

theorem status_extracted_iff {status : ExtractionStatus} : status = .extracted ↔ status ≠ .missing ∧ status ≠ .ambiguous := by
  cases status <;> decide

theorem reasonOf_eq_nil {b : Bool} {reason : RoutingReason} : (if b then [reason] else []) = [] ↔ b = false := by
  cases b <;> simp

theorem route_quiet_iff [DecimalContext] : (routeExtraction invoice sources tolerance ratio).invokeVlm = false ↔
    Quiet invoice sources tolerance ratio := by
  have hreasons : (routeExtraction invoice sources tolerance ratio).invokeVlm = false ↔
      routingReasons invoice sources tolerance ratio = [] := by
    simp [routeExtraction, List.dedup_eq_nil]
  have hlines : (if invoice.lineItems = [] then [RoutingReason.noLineItems]
      else if invoice.lineItems.any fun line => !lineComplete line then [.incompleteLineItems] else []) = [] ↔
      invoice.lineItems ≠ [] ∧ ∀ line ∈ invoice.lineItems, ∀ status ∈ lineStatuses line, status = .extracted := by
    by_cases hempty : invoice.lineItems = []
    · simp [hempty]
    · rw [if_neg hempty, reasonOf_eq_nil, List.any_eq_false]
      simp only [lineComplete, Bool.not_eq_true', Bool.not_eq_false, List.all_eq_true, isExtracted, decide_eq_true_iff,
        ne_eq, hempty, not_false_iff, true_and]
  rw [hreasons]
  simp only [routingReasons, List.append_eq_nil_iff, reasonOf_eq_nil, hlines, List.any_eq_false, decide_eq_true_iff,
    Bool.not_eq_true]
  constructor
  · rintro ⟨⟨⟨⟨⟨hmissing, hambiguous⟩, hne, hcomplete⟩, hheader⟩, harithmetic⟩, hpages⟩
    exact ⟨fun status hstatus => status_extracted_iff.2 ⟨hmissing status hstatus, hambiguous status hstatus⟩, hne, hcomplete,
      hheader, harithmetic, hpages⟩
  · rintro ⟨hcritical, hne, hcomplete, hheader, harithmetic, hpages⟩
    exact ⟨⟨⟨⟨⟨fun status hstatus => (status_extracted_iff.1 (hcritical status hstatus)).1,
      fun status hstatus => (status_extracted_iff.1 (hcritical status hstatus)).2⟩, hne, hcomplete⟩, hheader⟩, harithmetic⟩,
      hpages⟩

/-- The checks that may fail although the router is content: an issue of the hybrid extraction, an amount below zero, a
subtotal that differs from the lines, and the presence of the subtotal and of the tax. -/
def unrouted (invoice : Invoice) (c : ValidationCheck) : Prop :=
  c.code = .extractionRowAssociationUnresolved ∨ c.code = .negativeAmount ∨ c.code = .invoiceSubtotalMismatch ∨
    c.code = .invoiceSchemaIncomplete ∧ (c.expected = some "subtotal present" ∧ invoice.subtotal.status ≠ .extracted ∨
      c.expected = some "tax present" ∧ invoice.tax.status ≠ .extracted)

theorem code_negative {s l : String} {v : Option Decimal} {i : Option ℕ} {ev : List EvidenceSpan} {c : ValidationCheck}
    (h : c ∈ negativeCheck s l v i ev) : c.code = .negativeAmount := by
  unfold negativeCheck at h
  split at h
  · cases h
  · split_ifs at h
    · rw [List.mem_singleton.1 h, code_check]
    · cases h

theorem usable_of_complete {line : InvoiceLine} (h : ∀ status ∈ lineStatuses line, status = .extracted) :
    ∃ q p t, usableLine line = some (q, p, t) := by
  simp only [lineStatuses, List.forall_mem_cons] at h
  obtain ⟨-, hq, hp, ht, -⟩ := h
  obtain ⟨q, hq⟩ := Option.isSome_iff_exists.1 (ExtractedField.extractedValue_isSome.2 hq)
  obtain ⟨p, hp⟩ := Option.isSome_iff_exists.1 (ExtractedField.extractedValue_isSome.2 hp)
  obtain ⟨t, ht⟩ := Option.isSome_iff_exists.1 (ExtractedField.extractedValue_isSome.2 ht)
  exact ⟨q, p, t, by simp only [usableLine, hq, hp, ht]⟩

/-- A line that is complete and does not contradict itself fails at most because an amount is below zero. -/
theorem unrouted_lineChecks [DecimalContext] {line : InvoiceLine} {index : ℕ}
    (hcomplete : ∀ status ∈ lineStatuses line, status = .extracted)
    (harithmetic : lineContradicts tolerance line = false) (htolerance : tolerance ≤ policy.amountAbsolute)
    {c : ValidationCheck} (hc : c ∈ lineChecks policy index line) (hfailed : c.status ≠ .passed) :
    c.code = .negativeAmount := by
  obtain ⟨q, p, t, husable⟩ := usable_of_complete hcomplete
  simp only [lineContradicts, husable, decide_eq_false_iff_not, Decimal.lt_iff, not_lt] at harithmetic
  rw [Decimal.le_iff] at htolerance
  simp only [lineChecks, List.mem_append, List.mem_singleton] at hc
  obtain (((rfl | hc) | hc) | hc) | hc := hc
  · exact absurd (by rw [status_check, husable]; rfl) hfailed
  · exact code_negative hc
  · exact code_negative hc
  · exact code_negative hc
  · simp only [arithmeticCheck, husable, List.mem_singleton] at hc
    subst hc
    refine absurd ?_ hfailed
    rw [status_check, CheckStatus.of_eq_passed, decide_eq_true_iff, Decimal.le_iff]
    exact harithmetic.trans htolerance

theorem unrouted_of_quiet [DecimalContext] (h : Quiet invoice sources tolerance ratio)
    (htolerance : tolerance ≤ policy.amountAbsolute)
    {c : ValidationCheck} (hc : c ∈ validateInvoiceFinancials invoice policy) (hfailed : c.status ≠ .passed) :
    unrouted invoice c := by
  have hcurrency : invoice.currency.status = .extracted := h.critical _ (by simp [criticalStatuses])
  have htotal : invoice.total.status = .extracted := h.critical _ (by simp [criticalStatuses])
  simp only [validateInvoiceFinancials, List.mem_append, List.mem_cons, List.not_mem_nil, or_false] at hc
  obtain ((((((((hc | rfl | rfl) | hc) | rfl) | hc) | hc) | hc) | hc) | hc) | hc := hc
  · -- an issue of the row association
    unfold issueChecks at hc
    split_ifs at hc
    · cases hc
    · obtain rfl := List.mem_singleton.1 hc
      exact .inl rfl
  · exact absurd (currencyPresentCheck_passed.2 hcurrency) hfailed
  · refine absurd ?_ hfailed
    rw [totalPresentCheck, status_check, CheckStatus.of_eq_passed]
    exact ExtractedField.extractedValue_isSome.2 htotal
  · obtain ⟨⟨line, index⟩, hline, hc⟩ := List.mem_flatMap.1 hc
    have hmem : line ∈ invoice.lineItems := List.mem_of_getElem? (List.mem_zipIdx_iff_getElem?.1 hline)
    exact .inr (.inl (unrouted_lineChecks (h.complete line hmem) (h.arithmetic line hmem) htolerance hc hfailed))
  · -- there is a line, and it is usable
    refine absurd ?_ hfailed
    rw [usableLineCheck, status_check, CheckStatus.of_eq_passed, decide_eq_true_iff]
    obtain ⟨line, rest, hlines⟩ := List.exists_cons_of_ne_nil h.lines
    obtain ⟨q, p, t, husable⟩ := usable_of_complete (h.complete line (hlines ▸ List.mem_cons_self))
    simp [usableLineTotals, hlines, husable]
  · unfold subtotalChecks at hc
    split at hc
    · rename_i hnone
      obtain rfl := List.mem_singleton.1 hc
      exact .inr (.inr (.inr ⟨rfl, .inl ⟨rfl, ExtractedField.extractedValue_eq_none.1 hnone⟩⟩))
    · split_ifs at hc
      · cases hc
      · obtain rfl := List.mem_singleton.1 hc
        exact .inr (.inr (.inl rfl))
  · unfold taxChecks at hc
    split at hc
    · rename_i hnone
      obtain rfl := List.mem_singleton.1 hc
      exact .inr (.inr (.inr ⟨rfl, .inr ⟨rfl, ExtractedField.extractedValue_eq_none.1 hnone⟩⟩))
    · cases hc
  · exact .inr (.inl (code_negative hc))
  · exact .inr (.inl (code_negative hc))
  · exact .inr (.inl (code_negative hc))
  · -- the total agrees with the subtotal and the tax
    have hheader := h.header
    unfold totalChecks at hc
    unfold headerContradicts at hheader
    split at hc
    · rename_i s t T hs ht hT
      obtain rfl := List.mem_singleton.1 hc
      simp only [hs, ht, hT, decide_eq_false_iff_not, Decimal.lt_iff, not_lt] at hheader
      refine absurd ?_ hfailed
      rw [status_check, CheckStatus.of_eq_passed, decide_eq_true_iff, Decimal.le_iff]
      exact hheader.trans ((Decimal.le_iff ..).1 htolerance)
    · cases hc

theorem quiet_iff_of_financialsOk [DecimalContext] (h : FinancialsOk invoice policy)
    (htolerance : policy.amountAbsolute ≤ tolerance) :
    Quiet invoice sources tolerance ratio ↔ invoice.invoiceNumber.status = .extracted ∧
      invoice.invoiceDate.status = .extracted ∧ (∀ line ∈ invoice.lineItems, line.description.status = .extracted) ∧
      ocrHeavy ratio sources = false := by
  rw [Decimal.le_iff] at htolerance
  obtain ⟨s, t, T, ⟨hs, -⟩, ⟨ht, -⟩, ⟨hT, -⟩, -, htotal⟩ := h.header
  constructor
  · intro hquiet
    refine ⟨hquiet.critical _ (by simp [criticalStatuses]), hquiet.critical _ (by simp [criticalStatuses]),
      fun line hline => hquiet.complete line hline _ (by simp [lineStatuses]), hquiet.pages⟩
  · rintro ⟨hnumber, hdate, hdescriptions, hpages⟩
    refine ⟨?_, h.nonempty, fun line hline => ?_, ?_, fun line hline => ?_, hpages⟩
    · simp only [criticalStatuses, List.forall_mem_cons]
      exact ⟨hnumber, hdate, h.currency, hT.1, fun status hstatus => nomatch hstatus⟩
    · obtain ⟨q, p, l, hq, hp, hl, -⟩ := h.lines line hline
      simp only [lineStatuses, List.forall_mem_cons]
      exact ⟨hdescriptions line hline, hq.1.1, hp.1.1, hl.1.1, fun status hstatus => nomatch hstatus⟩
    · rw [← ExtractedField.extractedValue_eq_some] at hs ht hT
      simp only [headerContradicts, hs, ht, hT, decide_eq_false_iff_not, Decimal.lt_iff, not_lt,
        DecimalContext.toRat_absDiff, DecimalContext.toRat_add]
      exact htotal.trans htolerance
    · obtain ⟨q, p, l, hq, hp, hl, harithmetic⟩ := h.lines line hline
      have husable : usableLine line = some (q, p, l) := usableLine_eq_some.2 ⟨hq.1, hp.1, hl.1⟩
      simp only [lineContradicts, husable, decide_eq_false_iff_not, Decimal.lt_iff, not_lt,
        DecimalContext.toRat_absDiff, DecimalContext.toRat_multiply]
      exact harithmetic.trans htolerance

/-- With a tolerance that is not wider than that of the matching, an invoice that is not shown to the vision model fails no
check of the matching but those of `unrouted`; with one that is not narrower, an invoice whose amounts pass all checks is
shown to it exactly when its number, its date or a description is not extracted, or its pages were mostly read by OCR. -/
theorem escalation_agrees [DecimalContext] (invoice : Invoice) (sources : List TextSource) (tolerance : Decimal)
    (ratio : ℚ) (policy : Tolerances) :
    ((routeExtraction invoice sources tolerance ratio).invokeVlm = false → tolerance ≤ policy.amountAbsolute →
      ∀ c ∈ validateInvoiceFinancials invoice policy, c.status ≠ .passed → unrouted invoice c) ∧
    (Clean (validateInvoiceFinancials invoice policy) → policy.amountAbsolute ≤ tolerance →
      ((routeExtraction invoice sources tolerance ratio).invokeVlm = true ↔
        invoice.invoiceNumber.status ≠ .extracted ∨ invoice.invoiceDate.status ≠ .extracted ∨
          (∃ line ∈ invoice.lineItems, line.description.status ≠ .extracted) ∨ ocrHeavy ratio sources = true)) := by
  refine ⟨fun hquiet htolerance c hc hfailed => unrouted_of_quiet (route_quiet_iff.1 hquiet) htolerance hc hfailed,
    fun hclean htolerance => ?_⟩
  have hiff := (@route_quiet_iff invoice sources tolerance ratio).trans
    (quiet_iff_of_financialsOk (validate_clean_iff.1 hclean) htolerance)
  rw [← Bool.not_eq_false, hiff]
  simp only [not_and_or, not_forall, Bool.not_eq_false, exists_prop]

end

theorem escalation_agrees_filters :
    Clean (validateInvoiceFinancials filterInvoice Tolerances.default) ∧
    (routeExtraction filterInvoice [.embedded] Tolerances.default.amountAbsolute 1).invokeVlm = false ∧
    (∀ c ∈ validateInvoiceFinancials filterInvoice Tolerances.default, c.status ≠ .passed → unrouted filterInvoice c) ∧
    ((routeExtraction filterInvoice [.embedded] Tolerances.default.amountAbsolute 1).invokeVlm = true ↔
      filterInvoice.invoiceNumber.status ≠ .extracted ∨ filterInvoice.invoiceDate.status ≠ .extracted ∨
        (∃ line ∈ filterInvoice.lineItems, line.description.status ≠ .extracted) ∨ ocrHeavy 1 [.embedded] = true) := by
  have hclean : Clean (validateInvoiceFinancials filterInvoice Tolerances.default) := by
    unfold Clean
    decide +kernel
  have hquiet : (routeExtraction filterInvoice [.embedded] Tolerances.default.amountAbsolute 1).invokeVlm = false := by
    decide +kernel
  have hagrees := escalation_agrees filterInvoice [.embedded] Tolerances.default.amountAbsolute 1 Tolerances.default
  have htolerance : Tolerances.default.amountAbsolute ≤ Tolerances.default.amountAbsolute := by decide
  exact ⟨hclean, hquiet, hagrees.1 hquiet htolerance, hagrees.2 hclean htolerance⟩

end InvoiceOps
