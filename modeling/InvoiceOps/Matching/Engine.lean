import InvoiceOps.Lib.Lists
import InvoiceOps.Matching.Assignment
import InvoiceOps.Matching.Validation

/-! Two-way matching (`matching/engine.py`): the checks of the invoice, of the purchase order and of
each assignment, and the decision over all of them. `matched_iff` says exactly when an invoice is
matched, as a condition on the invoice, the purchase order and the selected pairs. -/

namespace InvoiceOps

open GreedyMatching
open DecimalContext (multiply absDiff rounded)

def comparisonCheck (code : ReasonCode) (passed : Bool) (expected actual : String)
    (tolerance : Option String) (message : String) (invoiceIndex : ℕ) (poLine : PurchaseOrderLine)
    (evidence : List EvidenceSpan) : ValidationCheck where
  code := code
  status := CheckStatus.of passed
  severity := CheckSeverity.of passed
  expected := some expected
  actual := some actual
  tolerance := tolerance
  message := message
  invoiceLineIndex := some invoiceIndex
  poLineId := some poLine.id
  evidence := evidence

/-- The allowed difference from the purchase-order price: none at all when that price is zero. -/
def priceTolerance [DecimalContext] (policy : Tolerances) (poLine : PurchaseOrderLine) : Decimal :=
  if poLine.unitPrice.numEq Decimal.zero then Decimal.zero
  else multiply (DecimalContext.abs poLine.unitPrice) policy.unitPriceRelative

def pricePassed [DecimalContext] (policy : Tolerances) (poLine : PurchaseOrderLine) (unitPrice : Decimal) : Bool :=
  if poLine.unitPrice.numEq Decimal.zero then decide (unitPrice.numEq Decimal.zero)
  else decide (absDiff unitPrice poLine.unitPrice ≤ priceTolerance policy poLine)

section

variable (T : TextOps) {invoice : Invoice} {po : PurchaseOrderRead} (policy : Tolerances)

def descriptionCheck (p : Pair invoice po) : ValidationCheck :=
  comparisonCheck .descriptionBelowThreshold (decide (policy.descriptionSimilarityThreshold ≤ p.score))
    (">= " ++ T.floatStr policy.descriptionSimilarityThreshold) (T.floatFixed6 p.score) none
    "Description similarity meets the matching threshold." p.invoiceIndex p.poLine
    p.invoiceLine.description.evidence

def quantityChecks [DecimalContext] (p : Pair invoice po) : List ValidationCheck :=
  match p.invoiceLine.quantity.extractedValue with
  | none => []
  | some quantity =>
    let passed := decide (absDiff quantity p.poLine.orderedQuantity ≤ policy.quantityAbsolute)
    [comparisonCheck .quantityMismatch passed p.poLine.orderedQuantity.text quantity.text
      (some policy.quantityAbsolute.text)
      (if passed then "Invoice quantity is within tolerance."
        else "Invoice quantity differs from ordered quantity.")
      p.invoiceIndex p.poLine p.invoiceLine.quantity.evidence]

def unitPriceChecks [DecimalContext] (p : Pair invoice po) : List ValidationCheck :=
  match p.invoiceLine.unitPrice.extractedValue with
  | none => []
  | some unitPrice =>
    let passed := pricePassed policy p.poLine unitPrice
    [comparisonCheck .unitPriceMismatch passed p.poLine.unitPrice.text unitPrice.text
      (some (priceTolerance policy p.poLine).text)
      (if passed then "Invoice unit price is within tolerance."
        else "Invoice unit price differs from the purchase-order price.")
      p.invoiceIndex p.poLine p.invoiceLine.unitPrice.evidence]

def lineAmountChecks [DecimalContext] (p : Pair invoice po) : List ValidationCheck :=
  match p.invoiceLine.lineTotal.extractedValue with
  | none => []
  | some lineTotal =>
    let expected := multiply p.poLine.orderedQuantity p.poLine.unitPrice
    let passed := decide (absDiff lineTotal expected ≤ policy.amountAbsolute)
    [comparisonCheck .lineAmountMismatch passed expected.text lineTotal.text
      (some policy.amountAbsolute.text)
      (if passed then "Invoice line amount is within tolerance."
        else "Invoice line amount differs from the purchase-order line amount.")
      p.invoiceIndex p.poLine p.invoiceLine.lineTotal.evidence]

/-- `_assignment`. -/
def assignment [DecimalContext] (p : Pair invoice po) : LineAssignment where
  invoiceLineIndex := p.invoiceIndex
  poLineId := p.poLine.id
  poLineNumber := p.poLine.lineNumber
  descriptionScore := p.score
  exactDescription := p.isExact
  checks := [descriptionCheck T policy p] ++ quantityChecks policy p ++ unitPriceChecks policy p ++
    lineAmountChecks policy p
  evidence := fullLineEvidence p.invoiceLine

end

/-- The check of a confirmed purchase-order line total; none when there is no total. -/
def poLineAmountChecks [DecimalContext] (policy : Tolerances) (line : PurchaseOrderLine) : List ValidationCheck :=
  match line.lineTotal with
  | none => []
  | some lineTotal =>
    let calculated := multiply line.orderedQuantity line.unitPrice
    let passed := decide (absDiff lineTotal calculated ≤ policy.amountAbsolute)
    [{ code := .poLineAmountMismatch
       status := CheckStatus.of passed
       severity := CheckSeverity.of passed
       expected := some calculated.text
       actual := some lineTotal.text
       tolerance := some policy.amountAbsolute.text
       message := if passed then "Confirmed PO line amount agrees with quantity times unit price."
         else "Confirmed PO line amount differs from quantity times unit price."
       poLineId := some line.id }]

/-- An empty currency text is shown as missing, like an absent one. -/
def currencyCheck (invoice : Invoice) (po : PurchaseOrderRead) : ValidationCheck :=
  let passed := decide (invoice.currency.status = .extracted ∧ invoice.currency.value = some po.currency)
  { code := .currencyMismatch
    status := CheckStatus.of passed
    severity := CheckSeverity.of passed
    expected := some po.currency
    actual := some ((invoice.currency.value.filter (· ≠ "")).getD "missing")
    message := if passed then "Invoice and purchase-order currencies match."
      else "Invoice currency differs from the purchase-order currency."
    evidence := invoice.currency.evidence }

/-- The decision and the counts over all checks, those of the assignments included. -/
def MatchResult.ofChecks (invoice : Invoice) (po : PurchaseOrderRead) (checks : List ValidationCheck)
    (assignments : List LineAssignment) : MatchResult :=
  let allChecks := checks ++ assignments.flatMap (·.checks)
  let failed := failedChecks allChecks
  { decision := if failed = [] then .matched else .needsReview
    summary :=
      { invoiceLineCount := invoice.lineItems.length
        poLineCount := po.lines.length
        assignedLineCount := assignments.length
        passedCheckCount := passedCount allChecks
        failedCheckCount := failed.length }
    checks := checks
    lineAssignments := assignments
    reasonCodes := (failed.map (·.code)).eraseDups }

/-- The checks made before the lines are assigned. -/
def headerChecks [DecimalContext] (invoice : Invoice) (po : PurchaseOrderRead) (policy : Tolerances) :
    List ValidationCheck :=
  validateInvoiceFinancials invoice policy ++ po.lines.flatMap (poLineAmountChecks policy) ++
    [currencyCheck invoice po]

def matchInvoice [DecimalContext] (T : TextOps) (invoice : Invoice) (po : PurchaseOrderRead)
    (policy : MatchingPolicy) : MatchResult :=
  let (checks, pairs) := candidatePairs T invoice po policy.toTolerances
    (headerChecks invoice po policy.toTolerances)
  MatchResult.ofChecks invoice po checks (pairs.map (assignment T policy.toTolerances))

/-- The price is within the relative tolerance of the purchase-order price, and exactly zero when
that price is zero. -/
def PriceOk [DecimalContext] (policy : Tolerances) (poLine : PurchaseOrderLine) (unitPrice : Decimal) : Prop :=
  |rounded (unitPrice.toRat - poLine.unitPrice.toRat)| ≤
      rounded (|rounded poLine.unitPrice.toRat| * policy.unitPriceRelative.toRat) ∧
    (poLine.unitPrice.toRat = 0 → unitPrice.toRat = 0)

/-- The second part follows from the first, which is all the three-way engine tests. -/
theorem priceOk_iff [DecimalContext] {policy : Tolerances} {poLine : PurchaseOrderLine} {u : Decimal} :
    PriceOk policy poLine u ↔ |rounded (u.toRat - poLine.unitPrice.toRat)| ≤
      rounded (|rounded poLine.unitPrice.toRat| * policy.unitPriceRelative.toRat) := by
  refine ⟨fun h => h.1, fun h => ⟨h, fun h0 => ?_⟩⟩
  simpa [h0] using h

/-- The comparisons of one assigned pair. -/
structure PairOk [DecimalContext] {invoice : Invoice} {po : PurchaseOrderRead} (policy : Tolerances)
    (p : Pair invoice po) : Prop where
  score : policy.descriptionSimilarityThreshold ≤ p.score
  quantity : ∀ q, p.invoiceLine.quantity.Holds q →
    |rounded (q.toRat - p.poLine.orderedQuantity.toRat)| ≤ policy.quantityAbsolute.toRat
  unitPrice : ∀ u, p.invoiceLine.unitPrice.Holds u → PriceOk policy p.poLine u
  lineTotal : ∀ t, p.invoiceLine.lineTotal.Holds t →
    |rounded (t.toRat - rounded (p.poLine.orderedQuantity.toRat * p.poLine.unitPrice.toRat))| ≤
      policy.amountAbsolute.toRat

/-- The conditions on the two documents that do not depend on the assignment. -/
structure HeaderOk [DecimalContext] (invoice : Invoice) (po : PurchaseOrderRead) (policy : Tolerances) : Prop where
  financials : FinancialsOk invoice policy
  currency : invoice.currency.Holds po.currency
  poLines : ∀ line ∈ po.lines, ∀ t, line.lineTotal = some t →
    |rounded (t.toRat - rounded (line.orderedQuantity.toRat * line.unitPrice.toRat))| ≤ policy.amountAbsolute.toRat

section

variable {T : TextOps} {invoice : Invoice} {po : PurchaseOrderRead} {policy : Tolerances}

@[simp] theorem status_comparisonCheck {code : ReasonCode} {passed : Bool} {e a : String}
    {t : Option String} {m : String} {i : ℕ} {l : PurchaseOrderLine} {ev : List EvidenceSpan} :
    (comparisonCheck code passed e a t m i l ev).status = CheckStatus.of passed := rfl

theorem pricePassed_iff [DecimalContext] {poLine : PurchaseOrderLine} {u : Decimal} :
    pricePassed policy poLine u = true ↔ PriceOk policy poLine u := by
  unfold pricePassed priceTolerance
  split_ifs with h
  · rw [Decimal.numEq_iff, Decimal.toRat_zero] at h
    rw [priceOk_iff, decide_eq_true_eq, Decimal.numEq_iff, Decimal.toRat_zero]
    simp [h]
  · simp [priceOk_iff, Decimal.le_iff]

theorem clean_quantityChecks [DecimalContext] {p : Pair invoice po} : Clean (quantityChecks policy p) ↔
    ∀ q, p.invoiceLine.quantity.Holds q →
      |rounded (q.toRat - p.poLine.orderedQuantity.toRat)| ≤ policy.quantityAbsolute.toRat := by
  simp only [quantityChecks, ← ExtractedField.extractedValue_eq_some]
  cases p.invoiceLine.quantity.extractedValue <;> simp [Decimal.le_iff]

theorem clean_unitPriceChecks [DecimalContext] {p : Pair invoice po} : Clean (unitPriceChecks policy p) ↔
    ∀ u, p.invoiceLine.unitPrice.Holds u → PriceOk policy p.poLine u := by
  simp only [unitPriceChecks, ← ExtractedField.extractedValue_eq_some]
  cases p.invoiceLine.unitPrice.extractedValue <;> simp [pricePassed_iff]

theorem clean_lineAmountChecks [DecimalContext] {p : Pair invoice po} : Clean (lineAmountChecks policy p) ↔
    ∀ t, p.invoiceLine.lineTotal.Holds t →
      |rounded (t.toRat - rounded (p.poLine.orderedQuantity.toRat * p.poLine.unitPrice.toRat))| ≤
        policy.amountAbsolute.toRat := by
  simp only [lineAmountChecks, ← ExtractedField.extractedValue_eq_some]
  cases p.invoiceLine.lineTotal.extractedValue <;> simp [Decimal.le_iff]

theorem clean_assignment [DecimalContext] {p : Pair invoice po} : Clean (assignment T policy p).checks ↔ PairOk policy p := by
  simp only [assignment, clean_append, clean_cons, clean_nil, and_true, clean_quantityChecks,
    clean_unitPriceChecks, clean_lineAmountChecks, descriptionCheck, status_comparisonCheck,
    CheckStatus.of_eq_passed, decide_eq_true_eq]
  refine ⟨fun h => ?_, fun h => ⟨⟨⟨h.score, h.quantity⟩, h.unitPrice⟩, h.lineTotal⟩⟩
  obtain ⟨⟨⟨hscore, hquantity⟩, hprice⟩, htotal⟩ := h
  exact ⟨hscore, hquantity, hprice, htotal⟩

theorem clean_poLineAmountChecks [DecimalContext] {line : PurchaseOrderLine} :
    Clean (poLineAmountChecks policy line) ↔ ∀ t, line.lineTotal = some t →
      |rounded (t.toRat - rounded (line.orderedQuantity.toRat * line.unitPrice.toRat))| ≤
        policy.amountAbsolute.toRat := by
  unfold poLineAmountChecks
  cases line.lineTotal <;> simp [Decimal.le_iff]

theorem clean_headerChecks [DecimalContext] : Clean (headerChecks invoice po policy) ↔ HeaderOk invoice po policy := by
  simp only [headerChecks, clean_append, validate_clean_iff, clean_flatMap, clean_poLineAmountChecks,
    clean_cons, clean_nil, and_true, currencyCheck, CheckStatus.of_eq_passed, decide_eq_true_eq]
  refine ⟨fun h => ?_, fun h => ⟨⟨h.financials, h.poLines⟩, h.currency⟩⟩
  obtain ⟨⟨hfinancials, hlines⟩, hcurrency⟩ := h
  exact ⟨hfinancials, hcurrency, hlines⟩

theorem exists_headerCheck_of_line [DecimalContext] (i : Fin invoice.lineItems.length) :
    ∃ c ∈ headerChecks invoice po policy, c.invoiceLineIndex = some (i : ℕ) := by
  have hline : ∃ c ∈ validateInvoiceFinancials invoice policy, c.invoiceLineIndex = some (i : ℕ) :=
    exists_check_of_line i.isLt
  obtain ⟨c, hc, hci⟩ := hline
  exact ⟨c, by simp [headerChecks, hc], hci⟩

theorem MatchResult.ofChecks_decision {checks : List ValidationCheck} {assignments : List LineAssignment} :
    (MatchResult.ofChecks invoice po checks assignments).decision = .matched ↔
      Clean checks ∧ ∀ a ∈ assignments, Clean a.checks := by
  rw [← clean_flatMap, ← clean_append, ← failedChecks_eq_nil]
  unfold MatchResult.ofChecks
  simp only
  split_ifs with h <;> simp [h]

variable (T invoice po policy) in
/-- The assigned pairs, by invoice line. -/
def assignedPairs [DecimalContext] : List (Pair invoice po) :=
  (candidatePairs T invoice po policy (headerChecks invoice po policy)).2

theorem perm_assignedPairs [DecimalContext] : (assignedPairs T invoice po policy).Perm (selectedPairs T invoice po policy) :=
  perm_candidatePairs

variable (T invoice po policy) in
/-- What has to hold for an invoice whose pairs are `pairs` to be matched two-way. Nothing here asks
for every invoice line to be in a pair. -/
structure Acceptable [DecimalContext] (pairs : List (Pair invoice po)) : Prop where
  header : HeaderOk invoice po policy
  resolved : LinesResolved T invoice po policy
  poLines : ∀ j, j ∈ pairs.map Pair.poIndex
  pairs : ∀ p ∈ pairs, PairOk policy p

/-- An invoice is matched exactly when its selected pairs are acceptable. -/
theorem matched_iff [DecimalContext] {policy : MatchingPolicy} :
    (matchInvoice T invoice po policy).decision = .matched ↔
      Acceptable T invoice po policy.toTolerances (selectedPairs T invoice po policy.toTolerances) := by
  have hpairs : (∀ a ∈ (assignedPairs T invoice po policy.toTolerances).map (assignment T policy.toTolerances),
      Clean a.checks) ↔ ∀ p ∈ selectedPairs T invoice po policy.toTolerances, PairOk policy.toTolerances p := by
    simp only [List.forall_mem_map, clean_assignment, perm_assignedPairs.mem_iff]
  simp only [matchInvoice, MatchResult.ofChecks_decision]
  rw [candidatePairs_checks exists_headerCheck_of_line, clean_append, clean_append, clean_headerChecks,
    clean_lineIssues, clean_poUnmatchedChecks]
  refine (and_congr_right fun _ => hpairs).trans ?_
  refine ⟨fun h => ?_, fun h => ⟨⟨⟨h.header, h.resolved⟩, h.poLines⟩, h.pairs⟩⟩
  obtain ⟨⟨⟨hheader, hresolved⟩, hpo⟩, hok⟩ := h
  exact ⟨hheader, hresolved, hpo, hok⟩

/-- Every invoice line index occurs in exactly one assignment. -/
def CoversInvoice (invoice : Invoice) (assignments : List LineAssignment) : Prop :=
  (assignments.map (·.invoiceLineIndex)).Perm (List.range invoice.lineItems.length)

/-- Every purchase-order line id occurs as often in the assignments as in the purchase order. -/
def CoversOrder (po : PurchaseOrderRead) (assignments : List LineAssignment) : Prop :=
  (assignments.map (·.poLineId)).Perm (po.lines.map (·.id))

/-- The assignments stand for the selected pairs, whatever their checks are. -/
def Represents (assignments : List LineAssignment) (pairs : List (Pair invoice po)) : Prop :=
  assignments.map (fun a => (a.invoiceLineIndex, a.poLineId)) = pairs.map fun p => ((p.invoiceIndex : ℕ), p.poLine.id)

theorem represents_map {f : Pair invoice po → LineAssignment} {pairs : List (Pair invoice po)}
    (h : ∀ p, (f p).invoiceLineIndex = p.invoiceIndex ∧ (f p).poLineId = p.poLine.id) :
    Represents (pairs.map f) pairs := by
  simp [Represents, h]

theorem Represents.index {assignments : List LineAssignment} {pairs : List (Pair invoice po)}
    (h : Represents assignments pairs) :
    assignments.map (·.invoiceLineIndex) = (pairs.map Pair.invoiceIndex).map Fin.val := by
  have hfst := congrArg (List.map Prod.fst) h
  rw [List.map_map, List.map_map] at hfst
  rw [List.map_map]
  exact hfst

theorem Represents.id {assignments : List LineAssignment} {pairs : List (Pair invoice po)}
    (h : Represents assignments pairs) :
    assignments.map (·.poLineId) = (pairs.map Pair.poIndex).map fun j => (po.lines.get j).id := by
  have hsnd := congrArg (List.map Prod.snd) h
  rw [List.map_map, List.map_map] at hsnd
  rw [List.map_map]
  exact hsnd

theorem coversInvoice_iff [DecimalContext] {assignments : List LineAssignment}
    (h : Represents assignments (assignedPairs T invoice po policy)) :
    CoversInvoice invoice assignments ↔
      ∀ i, i ∈ (selectedPairs T invoice po policy).map Pair.invoiceIndex := by
  have hperm : ((assignedPairs T invoice po policy).map Pair.invoiceIndex).Perm
      ((selectedPairs T invoice po policy).map Pair.invoiceIndex) := perm_assignedPairs.map _
  rw [CoversInvoice, h.index, Lists.map_val_perm_range_iff (hperm.nodup_iff.2 selectedPairs_oneToOne.left)]
  exact forall_congr' fun i => hperm.mem_iff

theorem coversOrder_iff [DecimalContext] {assignments : List LineAssignment}
    (h : Represents assignments (assignedPairs T invoice po policy)) :
    CoversOrder po assignments ↔ ∀ j, j ∈ (selectedPairs T invoice po policy).map Pair.poIndex := by
  have hperm : ((assignedPairs T invoice po policy).map Pair.poIndex).Perm
      ((selectedPairs T invoice po policy).map Pair.poIndex) := perm_assignedPairs.map _
  rw [CoversOrder, h.id, Lists.map_get_perm_iff _ (hperm.nodup_iff.2 selectedPairs_oneToOne.right)]
  exact forall_congr' fun j => hperm.mem_iff

/-- With distinct ids no purchase-order line is assigned twice. -/
theorem nodup_poLineId [DecimalContext] {assignments : List LineAssignment} (hids : (po.lines.map (·.id)).Nodup)
    (h : Represents assignments (assignedPairs T invoice po policy)) :
    (assignments.map (·.poLineId)).Nodup := by
  have hperm : ((assignedPairs T invoice po policy).map Pair.poIndex).Perm
      ((selectedPairs T invoice po policy).map Pair.poIndex) := perm_assignedPairs.map _
  rw [h.id]
  refine (hperm.nodup_iff.2 selectedPairs_oneToOne.right).map ?_
  intro j k hjk
  have hinj := List.nodup_iff_injective_get.1 hids
  have := @hinj ⟨j, by simp⟩ ⟨k, by simp⟩ (by simpa using hjk)
  exact Fin.ext (by simpa using this)

theorem nodup_invoiceLineIndex [DecimalContext] {assignments : List LineAssignment}
    (h : Represents assignments (assignedPairs T invoice po policy)) :
    (assignments.map (·.invoiceLineIndex)).Nodup := by
  have hperm : ((assignedPairs T invoice po policy).map Pair.invoiceIndex).Perm
      ((selectedPairs T invoice po policy).map Pair.invoiceIndex) := perm_assignedPairs.map _
  rw [h.index]
  exact (hperm.nodup_iff.2 selectedPairs_oneToOne.left).map Fin.val_injective

theorem represents_matchInvoice [DecimalContext] {policy : MatchingPolicy} :
    Represents (matchInvoice T invoice po policy).lineAssignments
      (assignedPairs T invoice po policy.toTolerances) :=
  represents_map fun _ => ⟨rfl, rfl⟩

theorem lineAssignments_matchInvoice [DecimalContext] {policy : MatchingPolicy} :
    (matchInvoice T invoice po policy).lineAssignments =
      (assignedPairs T invoice po policy.toTolerances).map (assignment T policy.toTolerances) := rfl

/-- A matched invoice satisfies every rule on the two documents and on its assignments; and when
these hold and the assignments are a bijection, the invoice is matched. -/
theorem matchInvoice_sound_complete [DecimalContext] (T : TextOps) (invoice : Invoice)
    (po : PurchaseOrderRead) (policy : MatchingPolicy) :
    (matchInvoice T invoice po policy).lineAssignments =
      (assignedPairs T invoice po policy.toTolerances).map (assignment T policy.toTolerances) ∧
    ((matchInvoice T invoice po policy).decision = .matched →
      HeaderOk invoice po policy.toTolerances ∧
        ∀ p ∈ assignedPairs T invoice po policy.toTolerances, PairOk policy.toTolerances p) ∧
    (HeaderOk invoice po policy.toTolerances →
      (∀ p ∈ assignedPairs T invoice po policy.toTolerances, PairOk policy.toTolerances p) →
      CoversInvoice invoice (matchInvoice T invoice po policy).lineAssignments →
      CoversOrder po (matchInvoice T invoice po policy).lineAssignments →
      (matchInvoice T invoice po policy).decision = .matched) := by
  refine ⟨rfl, ?_, ?_⟩
  · intro h
    obtain ⟨hheader, -, -, hpairs⟩ := matched_iff.1 h
    exact ⟨hheader, fun p hp => hpairs p (perm_assignedPairs.mem_iff.1 hp)⟩
  · intro hheader hpairs hinvoice horder
    rw [coversInvoice_iff represents_matchInvoice] at hinvoice
    rw [coversOrder_iff represents_matchInvoice] at horder
    exact matched_iff.2 ⟨hheader, linesResolved_of_selected hinvoice, horder,
      fun p hp => hpairs p (perm_assignedPairs.mem_iff.2 hp)⟩

end

def filterLine (description : String) : InvoiceLine where
  description := printed description description
  quantity := printed ⟨false, 1, 0⟩ "1"
  unitPrice := printed ⟨false, 10, 0⟩ "10"
  lineTotal := printed ⟨false, 10, 0⟩ "10"

/-- Two filters are billed. -/
def filterInvoice : Invoice where
  extractionIssues := []
  invoiceNumber := printed "INV-1" "INV-1"
  invoiceDate := printed ⟨738000, by norm_num, by norm_num⟩ "2021-07-29"
  currency := printed "EUR" "EUR"
  subtotal := printed ⟨false, 20, 0⟩ "20"
  tax := printed ⟨false, 0, 0⟩ "0"
  total := printed ⟨false, 20, 0⟩ "20"
  lineItems := [filterLine "Industrial Filter Large", filterLine "Industrial Filter Small"]

/-- One filter is ordered. -/
def filterOrder : PurchaseOrderRead where
  id := Uuid.ofNat 1
  externalPoNumber := "PO-1"
  vendorName := some "Acme"
  currency := "EUR"
  createdAt := .first
  lines :=
    [{ id := Uuid.ofNat 2
       purchaseOrderId := Uuid.ofNat 1
       lineNumber := "1"
       description := "Industrial Filter"
       orderedQuantity := ⟨false, 1, 0⟩
       unitPrice := ⟨false, 10, 0⟩
       lineTotal := none }]

/-- One filter is billed under a longer description. -/
def oneFilterInvoice : Invoice :=
  { filterInvoice with
    subtotal := printed ⟨false, 10, 0⟩ "10"
    total := printed ⟨false, 10, 0⟩ "10"
    lineItems := [filterLine "Industrial Filter Large"] }

theorem matchInvoice_sound_complete_filter :
    HeaderOk oneFilterInvoice filterOrder MatchingPolicy.default.toTolerances ∧
    CoversInvoice oneFilterInvoice (matchInvoice asciiTextOps oneFilterInvoice filterOrder .default).lineAssignments ∧
    CoversOrder filterOrder (matchInvoice asciiTextOps oneFilterInvoice filterOrder .default).lineAssignments ∧
    (matchInvoice asciiTextOps oneFilterInvoice filterOrder .default).decision = .matched := by
  obtain ⟨-, hsound, hcomplete⟩ := matchInvoice_sound_complete asciiTextOps oneFilterInvoice filterOrder .default
  obtain ⟨hheader, hpairs⟩ := hsound (by decide +kernel)
  have hinvoice : CoversInvoice oneFilterInvoice
      (matchInvoice asciiTextOps oneFilterInvoice filterOrder .default).lineAssignments := by
    unfold CoversInvoice
    decide +kernel
  have horder : CoversOrder filterOrder
      (matchInvoice asciiTextOps oneFilterInvoice filterOrder .default).lineAssignments := by
    unfold CoversOrder
    decide +kernel
  exact ⟨hheader, hinvoice, horder, hcomplete hheader hpairs hinvoice horder⟩

end InvoiceOps
