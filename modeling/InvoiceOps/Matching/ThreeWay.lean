import InvoiceOps.Matching.Context
import InvoiceOps.Matching.Engine

/-! Three-way matching (`matching/three_way.py`): the two-way result with four kinds of checks
dropped, the receipt checks put in their place, and the quantities to allocate. The source raises when
an id is not in its context or a text is not a number; here the result is then `none`. -/

namespace InvoiceOps

open Calendar GreedyMatching
open DecimalContext (multiply subtract absDiff rounded)

structure AllocationDraft where
  purchaseOrderLineId : Uuid
  invoiceLineIndex : ℕ
  quantity : Decimal
deriving DecidableEq, Repr

/-- The kinds of two-way checks the three-way decision does without. -/
def discarded : List ReasonCode := [.poLineUnmatched, .quantityMismatch, .unitPriceMismatch, .lineAmountMismatch]

def keptChecks (checks : List ValidationCheck) : List ValidationCheck :=
  checks.filter fun c => c.code ∉ discarded

def receiptCheck (code : ReasonCode) (passed : Bool) (message : String) (line : ReceiptLineContextRead)
    (invoiceIndex : ℕ) (invoiceQuantity : Option Decimal) : ValidationCheck where
  code := code
  status := CheckStatus.of passed
  severity := CheckSeverity.of passed
  message := message
  invoiceLineIndex := some invoiceIndex
  poLineId := some line.purchaseOrderLineId
  receiptIds := (line.activeReceipts ++ line.reversedReceipts).map (·.receiptId)
  orderedQuantity := some line.orderedQuantity
  receivedQuantity := some line.effectiveReceivedQuantity
  previouslyInvoicedQuantity := some line.previouslyAllocatedQuantity
  availableQuantity := some line.availableQuantity
  invoiceQuantity := invoiceQuantity.map Decimal.text

/-- A receipt check that compares two values. -/
def receiptComparison (code : ReasonCode) (passed : Bool) (message : String) (line : ReceiptLineContextRead)
    (invoiceIndex : ℕ) (invoiceQuantity : Option Decimal) (expected actual tolerance : Decimal)
    (evidence : List EvidenceSpan) : ValidationCheck :=
  { receiptCheck code passed message line invoiceIndex invoiceQuantity with
    expected := some expected.text
    actual := some actual.text
    tolerance := some tolerance.text
    evidence := evidence }

section

variable (policy : ThreeWayMatchingPolicy) (anyActive : Bool) (invoiceDate : Option Date)
  (line : ReceiptLineContextRead) (index : ℕ) (quantity : Option Decimal)

def reversedChecks : List ValidationCheck :=
  if line.reversedReceipts = [] then []
  else [receiptCheck .goodsReceiptReversed false "A receipt for this purchase-order line was reversed."
    line index quantity]

def missingReceiptChecks : List ValidationCheck :=
  if line.activeReceipts = [] then
    [receiptCheck (if anyActive then .receiptLineMissing else .noGoodsReceipt) false
      "No active goods receipt covers this purchase-order line." line index quantity]
  else []

/-- Without an extracted invoice date there is nothing to compare. -/
def receiptDateChecks : List ValidationCheck :=
  match invoiceDate with
  | none => []
  | some day =>
    if line.activeReceipts.any fun r => (day.ordinal : ℤ) < r.receivedAt.date then
      [receiptCheck .receiptAfterInvoice false "Goods were received after the invoice date."
        line index quantity]
    else []

def receivedChecks [DecimalContext] (received ordered : Decimal) : List ValidationCheck :=
  if DecimalContext.add ordered policy.quantityAbsolute < received then
    [receiptComparison .receivedQuantityExceedsOrdered false
      "Effective received quantity exceeds ordered quantity." line index quantity ordered received
      policy.quantityAbsolute []]
  else []

variable (invoiceLine : InvoiceLine) (poLine : PurchaseOrderLine) (q : Decimal)

def partialChecks [DecimalContext] (ordered : Decimal) : List ValidationCheck :=
  if policy.allowPartialInvoice = false ∧ q < subtract ordered policy.quantityAbsolute then
    [receiptComparison .quantityMismatch false "Partial invoicing is disabled by the three-way policy."
      line index (some q) ordered q policy.quantityAbsolute invoiceLine.quantity.evidence]
  else []

def availableCheck [DecimalContext] (available previous : Decimal) : ValidationCheck :=
  let ok := decide (q ≤ DecimalContext.add available policy.quantityAbsolute)
  receiptComparison
    (if Decimal.zero < previous then .cumulativeQuantityExceedsReceived else .invoiceQuantityExceedsReceived)
    ok
    (if ok then "Invoice quantity is within available received quantity."
      else "Invoice quantity exceeds available received quantity.")
    line index (some q) available q policy.quantityAbsolute invoiceLine.quantity.evidence

/-- The price is compared when it has a value, whatever its extraction status. -/
def threeWayPriceChecks [DecimalContext] : List ValidationCheck :=
  match invoiceLine.unitPrice.value with
  | none => []
  | some u =>
    let allowed := multiply (DecimalContext.abs poLine.unitPrice) policy.unitPriceRelative
    let ok := decide (absDiff u poLine.unitPrice ≤ allowed)
    [receiptComparison .threeWayUnitPriceMismatch ok
      (if ok then "Invoice unit price is within policy tolerance."
        else "Invoice unit price differs from the purchase-order price.")
      line index (some q) poLine.unitPrice u allowed invoiceLine.unitPrice.evidence]

/-- The total too is compared when it has a value. -/
def threeWayAmountChecks [DecimalContext] : List ValidationCheck :=
  match invoiceLine.lineTotal.value with
  | none => []
  | some t =>
    let expected := multiply q poLine.unitPrice
    let ok := decide (absDiff t expected ≤ policy.amountAbsolute)
    [receiptComparison .threeWayLineAmountMismatch ok
      (if ok then "Invoice line amount equals received quantity at the PO price."
        else "Invoice line amount differs from quantity at the PO price.")
      line index (some q) expected t policy.amountAbsolute invoiceLine.lineTotal.evidence]

/-- The checks made when the line has a quantity. -/
def quantityValueChecks [DecimalContext] (ordered available previous : Decimal) : List ValidationCheck :=
  partialChecks policy line index invoiceLine q ordered ++
  [availableCheck policy line index invoiceLine q available previous] ++
  threeWayPriceChecks policy line index invoiceLine poLine q ++
  threeWayAmountChecks policy line index invoiceLine poLine q

end

/-- One pass of the loop over the assignments: the assignment with its new checks, and the draft of
its allocation when the line has a quantity. -/
def threeWayAssignment [DecimalContext] (invoice : Invoice) (po : PurchaseOrderRead)
    (context : ThreeWayContextSnapshot) (policy : ThreeWayMatchingPolicy) (a : LineAssignment) :
    Option (LineAssignment × Option AllocationDraft) := do
  let line ← context.lines.reverse.find? (·.purchaseOrderLineId = a.poLineId)
  let invoiceLine ← invoice.lineItems[a.invoiceLineIndex]?
  let poLine ← po.lines.reverse.find? (·.id = a.poLineId)
  let received ← Decimal.ofText line.effectiveReceivedQuantity
  let ordered ← Decimal.ofText line.orderedQuantity
  let quantity := invoiceLine.quantity.extractedValue
  let anyActive := context.lines.any fun l => l.activeReceipts ≠ []
  let receiptChecks := reversedChecks line a.invoiceLineIndex quantity ++
    missingReceiptChecks anyActive line a.invoiceLineIndex quantity ++
    receiptDateChecks invoice.invoiceDate.extractedValue line a.invoiceLineIndex quantity ++
    receivedChecks policy line a.invoiceLineIndex quantity received ordered
  match quantity with
  | none => some ({ a with checks := keptChecks a.checks ++ receiptChecks }, none)
  | some q => do
    let available ← Decimal.ofText line.availableQuantity
    let previous ← Decimal.ofText line.previouslyAllocatedQuantity
    some
      ({ a with checks := keptChecks a.checks ++ receiptChecks ++
          quantityValueChecks policy line a.invoiceLineIndex invoiceLine poLine q ordered available previous },
        some ⟨a.poLineId, a.invoiceLineIndex, q⟩)

/-- The two-way policy with the tolerances of the three-way one. -/
def basePolicy (policy : ThreeWayMatchingPolicy) : MatchingPolicy :=
  { policy.toTolerances with version := MatchingPolicy.default.version }

def matchInvoiceThreeWay [DecimalContext] (T : TextOps) (invoice : Invoice) (po : PurchaseOrderRead)
    (context : ThreeWayContextSnapshot) (policy : ThreeWayMatchingPolicy) :
    Option (MatchResult × List AllocationDraft) := do
  let base := matchInvoice T invoice po (basePolicy policy)
  let outcomes ← base.lineAssignments.mapM (threeWayAssignment invoice po context policy)
  let result := MatchResult.ofChecks invoice po (keptChecks base.checks) (outcomes.map (·.1))
  some (result, if result.decision = .matched then outcomes.filterMap (·.2) else [])

section

variable {T : TextOps} {invoice : Invoice} {po : PurchaseOrderRead} {context : ThreeWayContextSnapshot}
  {policy : ThreeWayMatchingPolicy}

/-- The rules on one assigned pair, read from the entry of its purchase-order line in the context. -/
structure ThreeWayPairOk [DecimalContext] (context : ThreeWayContextSnapshot) (policy : ThreeWayMatchingPolicy)
    (p : Pair invoice po) (line : ReceiptLineContextRead) (ordered received available : ℚ) : Prop where
  entry : context.lines.reverse.find? (·.purchaseOrderLineId = p.poLine.id) = some line
  orderedText : TextValue line.orderedQuantity ordered
  receivedText : TextValue line.effectiveReceivedQuantity received
  availableText : TextValue line.availableQuantity available
  previousText : ∃ v, TextValue line.previouslyAllocatedQuantity v
  notReversed : line.reversedReceipts = []
  active : line.activeReceipts ≠ []
  dates : ∀ day, invoice.invoiceDate.Holds day →
    ∀ r ∈ line.activeReceipts, r.receivedAt.date ≤ (day.ordinal : ℤ)
  notOver : received ≤ rounded (ordered + policy.quantityAbsolute.toRat)
  quantity : ∀ q, p.invoiceLine.quantity.Holds q → q.toRat ≤ rounded (available + policy.quantityAbsolute.toRat) ∧
    (policy.allowPartialInvoice = false → rounded (ordered - policy.quantityAbsolute.toRat) ≤ q.toRat)
  unitPrice : ∀ u, p.invoiceLine.unitPrice.value = some u → PriceOk policy.toTolerances p.poLine u
  lineTotal : ∀ q t, p.invoiceLine.quantity.Holds q → p.invoiceLine.lineTotal.value = some t →
    |rounded (t.toRat - rounded (q.toRat * p.poLine.unitPrice.toRat))| ≤ policy.amountAbsolute.toRat

@[simp] theorem status_receiptCheck {code : ReasonCode} {passed : Bool} {m : String}
    {line : ReceiptLineContextRead} {i : ℕ} {q : Option Decimal} :
    (receiptCheck code passed m line i q).status = CheckStatus.of passed := rfl

@[simp] theorem status_receiptComparison {code : ReasonCode} {passed : Bool} {m : String}
    {line : ReceiptLineContextRead} {i : ℕ} {q : Option Decimal} {e a t : Decimal} {ev : List EvidenceSpan} :
    (receiptComparison code passed m line i q e a t ev).status = CheckStatus.of passed := rfl

theorem clean_reversedChecks {line : ReceiptLineContextRead} {i : ℕ} {q : Option Decimal} :
    Clean (reversedChecks line i q) ↔ line.reversedReceipts = [] := by
  unfold reversedChecks
  split_ifs with h <;> simp [h]

theorem clean_missingReceiptChecks {b : Bool} {line : ReceiptLineContextRead} {i : ℕ} {q : Option Decimal} :
    Clean (missingReceiptChecks b line i q) ↔ line.activeReceipts ≠ [] := by
  unfold missingReceiptChecks
  split_ifs with h <;> simp [h]

theorem clean_receiptDateChecks {f : ExtractedField Date} {line : ReceiptLineContextRead} {i : ℕ}
    {q : Option Decimal} : Clean (receiptDateChecks f.extractedValue line i q) ↔
      ∀ day, f.Holds day → ∀ r ∈ line.activeReceipts, r.receivedAt.date ≤ (day.ordinal : ℤ) := by
  simp only [← ExtractedField.extractedValue_eq_some]
  unfold receiptDateChecks
  cases f.extractedValue with
  | none => simp
  | some day =>
    simp only [Option.some.injEq, forall_eq']
    split_ifs with h
    · obtain ⟨r, hr, hlt⟩ := List.any_eq_true.1 h
      simp only [clean_cons, status_receiptCheck, CheckStatus.of_false, reduceCtorEq, false_and, false_iff]
      exact fun hall => absurd (hall r hr) (not_le.2 (by simpa using hlt))
    · simpa using h

theorem clean_receivedChecks [DecimalContext] {line : ReceiptLineContextRead} {i : ℕ} {q : Option Decimal}
    {r o : Decimal} :
    Clean (receivedChecks policy line i q r o) ↔ r.toRat ≤ rounded (o.toRat + policy.quantityAbsolute.toRat) := by
  unfold receivedChecks
  split_ifs with h <;> simpa [Decimal.lt_iff] using h

theorem clean_quantityValueChecks [DecimalContext] {line : ReceiptLineContextRead} {i : ℕ} {l : InvoiceLine}
    {poLine : PurchaseOrderLine} {q o a v : Decimal} :
    Clean (quantityValueChecks policy line i l poLine q o a v) ↔
      (policy.allowPartialInvoice = false → rounded (o.toRat - policy.quantityAbsolute.toRat) ≤ q.toRat) ∧
      q.toRat ≤ rounded (a.toRat + policy.quantityAbsolute.toRat) ∧
      (∀ u, l.unitPrice.value = some u → PriceOk policy.toTolerances poLine u) ∧
      ∀ t, l.lineTotal.value = some t →
        |rounded (t.toRat - rounded (q.toRat * poLine.unitPrice.toRat))| ≤ policy.amountAbsolute.toRat := by
  have hallow : Clean (partialChecks policy line i l q o) ↔
      (policy.allowPartialInvoice = false → rounded (o.toRat - policy.quantityAbsolute.toRat) ≤ q.toRat) := by
    unfold partialChecks
    split_ifs with h
    · simp only [clean_cons, status_receiptComparison, CheckStatus.of_false, reduceCtorEq, false_and, false_iff]
      rw [Decimal.lt_iff, DecimalContext.toRat_subtract] at h
      exact fun hle => absurd (hle h.1) (not_le.2 h.2)
    · rw [Decimal.lt_iff, DecimalContext.toRat_subtract, not_and, not_lt] at h
      simpa using h
  have hprice : Clean (threeWayPriceChecks policy line i l poLine q) ↔
      ∀ u, l.unitPrice.value = some u → PriceOk policy.toTolerances poLine u := by
    unfold threeWayPriceChecks
    cases l.unitPrice.value <;> simp [priceOk_iff, Decimal.le_iff]
  have hamount : Clean (threeWayAmountChecks policy line i l poLine q) ↔ ∀ t, l.lineTotal.value = some t →
      |rounded (t.toRat - rounded (q.toRat * poLine.unitPrice.toRat))| ≤ policy.amountAbsolute.toRat := by
    unfold threeWayAmountChecks
    cases l.lineTotal.value <;> simp [Decimal.le_iff]
  simp only [quantityValueChecks, clean_append, clean_cons, clean_nil, and_true, hallow, hprice, hamount,
    availableCheck, status_receiptComparison, CheckStatus.of_eq_passed, decide_eq_true_eq, Decimal.le_iff,
    DecimalContext.toRat_add, and_assoc]

/-- Of the checks of an assignment only the one of the description is kept. -/
theorem keptChecks_assignment [DecimalContext] {tol : Tolerances} {p : Pair invoice po} :
    keptChecks (assignment T tol p).checks = [descriptionCheck T tol p] := by
  have hq : ∀ c ∈ quantityChecks tol p, c.code ∈ discarded := by
    unfold quantityChecks
    split <;> simp [comparisonCheck, discarded]
  have hu : ∀ c ∈ unitPriceChecks tol p, c.code ∈ discarded := by
    unfold unitPriceChecks
    split <;> simp [comparisonCheck, discarded]
  have ht : ∀ c ∈ lineAmountChecks tol p, c.code ∈ discarded := by
    unfold lineAmountChecks
    split <;> simp [comparisonCheck, discarded]
  have hnil : ∀ {cs : List ValidationCheck}, (∀ c ∈ cs, c.code ∈ discarded) → keptChecks cs = [] := by
    intro cs h
    simpa [keptChecks, List.filter_eq_nil_iff] using h
  have hd : keptChecks [descriptionCheck T tol p] = [descriptionCheck T tol p] := by
    simp [keptChecks, descriptionCheck, comparisonCheck, discarded]
  unfold keptChecks at hnil hd ⊢
  simp only [assignment, List.filter_append]
  rw [hd, hnil hq, hnil hu, hnil ht]
  simp

theorem find_poLine (hids : (po.lines.map (·.id)).Nodup) (p : Pair invoice po) :
    po.lines.reverse.find? (·.id = p.poLine.id) = some p.poLine := by
  exact Lists.find?_reverse_key hids (List.get_mem _ _)

/-- The checks of one assignment against the receipts of its line, whether it has a quantity or not. -/
def receiptChecks [DecimalContext] (invoice : Invoice) (context : ThreeWayContextSnapshot) (policy : ThreeWayMatchingPolicy)
    (line : ReceiptLineContextRead) (index : ℕ) (quantity : Option Decimal) (received ordered : Decimal) :
    List ValidationCheck :=
  reversedChecks line index quantity ++
    missingReceiptChecks (context.lines.any fun l => l.activeReceipts ≠ []) line index quantity ++
    receiptDateChecks invoice.invoiceDate.extractedValue line index quantity ++
    receivedChecks policy line index quantity received ordered

/-- What has to be found and readable for one pass of the loop. -/
structure PassReads (invoice : Invoice) (po : PurchaseOrderRead) (context : ThreeWayContextSnapshot)
    (a : LineAssignment) (line : ReceiptLineContextRead) (l : InvoiceLine) (poLine : PurchaseOrderLine)
    (received ordered : Decimal) : Prop where
  receivedText : Decimal.ofText line.effectiveReceivedQuantity = some received
  orderedText : Decimal.ofText line.orderedQuantity = some ordered
  entry : context.lines.reverse.find? (·.purchaseOrderLineId = a.poLineId) = some line
  invoiceLine : invoice.lineItems[a.invoiceLineIndex]? = some l
  orderLine : po.lines.reverse.find? (·.id = a.poLineId) = some poLine

/-- One pass of the loop, for a line without a quantity and for one with it. -/
theorem threeWayAssignment_eq_some [DecimalContext] {a : LineAssignment} {o : LineAssignment × Option AllocationDraft} :
    threeWayAssignment invoice po context policy a = some o ↔
      ∃ line l poLine received ordered, PassReads invoice po context a line l poLine received ordered ∧
        (l.quantity.extractedValue = none ∧
            o = ({ a with checks := keptChecks a.checks ++
              receiptChecks invoice context policy line a.invoiceLineIndex none received ordered }, none) ∨
          ∃ q available previous, l.quantity.extractedValue = some q ∧
            Decimal.ofText line.availableQuantity = some available ∧
            Decimal.ofText line.previouslyAllocatedQuantity = some previous ∧
            o = ({ a with checks := keptChecks a.checks ++
                receiptChecks invoice context policy line a.invoiceLineIndex (some q) received ordered ++
                quantityValueChecks policy line a.invoiceLineIndex l poLine q ordered available previous },
              some ⟨a.poLineId, a.invoiceLineIndex, q⟩)) := by
  simp only [threeWayAssignment, Option.bind_eq_bind, Option.bind_eq_some_iff]
  constructor
  · rintro ⟨line, hline, l, hl, poLine, hpo, received, hreceived, ordered, hordered, h⟩
    refine ⟨line, l, poLine, received, ordered, ⟨hreceived, hordered, hline, hl, hpo⟩, ?_⟩
    cases hq : l.quantity.extractedValue with
    | none =>
      rw [hq] at h
      exact .inl ⟨rfl, (Option.some.inj h).symm⟩
    | some q =>
      rw [hq] at h
      simp only [Option.bind_eq_some_iff] at h
      obtain ⟨available, havailable, previous, hprevious, h⟩ := h
      exact .inr ⟨q, available, previous, rfl, havailable, hprevious, (Option.some.inj h).symm⟩
  · rintro ⟨line, l, poLine, received, ordered, ⟨hreceived, hordered, hline, hl, hpo⟩, h⟩
    refine ⟨line, hline, l, hl, poLine, hpo, received, hreceived, ordered, hordered, ?_⟩
    rcases h with ⟨hq, rfl⟩ | ⟨q, available, previous, hq, havailable, hprevious, rfl⟩
    · rw [hq]
      rfl
    · rw [hq]
      simp only [Option.bind_eq_some_iff]
      exact ⟨available, havailable, previous, hprevious, rfl⟩

/-- What one pass of the loop keeps of an assignment, and the draft it makes. -/
theorem threeWayAssignment_frame [DecimalContext] {a : LineAssignment} {o : LineAssignment × Option AllocationDraft}
    (h : threeWayAssignment invoice po context policy a = some o) :
    o.1.invoiceLineIndex = a.invoiceLineIndex ∧ o.1.poLineId = a.poLineId ∧
      ∃ l, invoice.lineItems[a.invoiceLineIndex]? = some l ∧
        o.2 = l.quantity.extractedValue.map fun q => ⟨a.poLineId, a.invoiceLineIndex, q⟩ := by
  obtain ⟨line, l, poLine, received, ordered, hreads, ⟨hq, rfl⟩ | ⟨q, available, previous, hq, -, -, rfl⟩⟩ :=
    threeWayAssignment_eq_some.1 h
  · exact ⟨rfl, rfl, l, hreads.invoiceLine, by rw [hq]; rfl⟩
  · exact ⟨rfl, rfl, l, hreads.invoiceLine, by rw [hq]; rfl⟩

/-- The pass over an assigned pair whose line has a quantity, with all that has to be readable. -/
theorem threeWayAssignment_pair [DecimalContext] {p : Pair invoice po} (hids : (po.lines.map (·.id)).Nodup) {q : Decimal}
    (hq : p.invoiceLine.quantity.Holds q) {o : LineAssignment × Option AllocationDraft} :
    threeWayAssignment invoice po context policy (assignment T policy.toTolerances p) = some o ↔
      ∃ line received ordered available previous,
        context.lines.reverse.find? (·.purchaseOrderLineId = p.poLine.id) = some line ∧
        Decimal.ofText line.effectiveReceivedQuantity = some received ∧
        Decimal.ofText line.orderedQuantity = some ordered ∧
        Decimal.ofText line.availableQuantity = some available ∧
        Decimal.ofText line.previouslyAllocatedQuantity = some previous ∧
        ({ assignment T policy.toTolerances p with
            checks := [descriptionCheck T policy.toTolerances p] ++
              (reversedChecks line p.invoiceIndex (some q) ++
                missingReceiptChecks (context.lines.any fun l => l.activeReceipts ≠ []) line p.invoiceIndex
                  (some q) ++
                receiptDateChecks invoice.invoiceDate.extractedValue line p.invoiceIndex (some q) ++
                receivedChecks policy line p.invoiceIndex (some q) received ordered) ++
              quantityValueChecks policy line p.invoiceIndex p.invoiceLine p.poLine q ordered available
                previous },
          some ⟨p.poLine.id, p.invoiceIndex, q⟩) = o := by
  have hl : invoice.lineItems[(p.invoiceIndex : ℕ)]? = some p.invoiceLine :=
    List.getElem?_eq_getElem p.invoiceIndex.isLt
  have hqv := ExtractedField.extractedValue_eq_some.2 hq
  have ha : (assignment T policy.toTolerances p).poLineId = p.poLine.id := rfl
  have hi : (assignment T policy.toTolerances p).invoiceLineIndex = p.invoiceIndex := rfl
  simp only [threeWayAssignment, Option.bind_eq_bind, Option.bind_eq_some_iff, ha, hi, hl, find_poLine hids p,
    Option.some.injEq, exists_eq_left', hqv, keptChecks_assignment]
  constructor
  · rintro ⟨line, h1, received, h2, ordered, h3, available, h4, previous, h5, h⟩
    exact ⟨line, received, ordered, available, previous, h1, h2, h3, h4, h5, h⟩
  · rintro ⟨line, received, ordered, available, previous, h1, h2, h3, h4, h5, h⟩
    exact ⟨line, h1, received, h2, ordered, h3, available, h4, previous, h5, h⟩

theorem threeWayAssignment_clean [DecimalContext] {p : Pair invoice po} (hids : (po.lines.map (·.id)).Nodup) {q : Decimal}
    (hq : p.invoiceLine.quantity.Holds q) :
    (∃ o, threeWayAssignment invoice po context policy (assignment T policy.toTolerances p) = some o ∧
      Clean o.1.checks) ↔
      policy.descriptionSimilarityThreshold ≤ p.score ∧
        ∃ line ordered received available, ThreeWayPairOk context policy p line ordered received available := by
  have huniq : ∀ {d : Decimal}, p.invoiceLine.quantity.Holds d → d = q := fun hd =>
    Option.some.inj (hd.2.symm.trans hq.2)
  simp only [threeWayAssignment_pair hids hq]
  constructor
  · rintro ⟨o, ⟨line, received, ordered, available, previous, h1, h2, h3, h4, h5, rfl⟩, hclean⟩
    simp only [clean_append, clean_cons, clean_nil, and_true, descriptionCheck, status_comparisonCheck,
      CheckStatus.of_eq_passed, decide_eq_true_eq, clean_reversedChecks, clean_missingReceiptChecks,
      clean_receiptDateChecks, clean_receivedChecks, clean_quantityValueChecks] at hclean
    obtain ⟨⟨hscore, ⟨⟨hrev, hact⟩, hdates⟩, hover⟩, hpart, havail, hprice, htotal⟩ := hclean
    refine ⟨hscore, line, ordered.toRat, received.toRat, available.toRat, h1, ⟨_, h3, rfl⟩, ⟨_, h2, rfl⟩,
      ⟨_, h4, rfl⟩, ⟨_, _, h5, rfl⟩, hrev, hact, hdates, hover, ?_, hprice, ?_⟩
    · intro d hd
      obtain rfl := huniq hd
      exact ⟨havail, hpart⟩
    · intro d t hd ht
      obtain rfl := huniq hd
      exact htotal t ht
  · rintro ⟨hscore, line, o, r, v, hok⟩
    obtain ⟨ordered, h3, rfl⟩ := hok.orderedText
    obtain ⟨received, h2, rfl⟩ := hok.receivedText
    obtain ⟨available, h4, rfl⟩ := hok.availableText
    obtain ⟨-, previous, h5, -⟩ := hok.previousText
    refine ⟨_, ⟨line, received, ordered, available, previous, hok.entry, h2, h3, h4, h5, rfl⟩, ?_⟩
    simp only [clean_append, clean_cons, clean_nil, and_true, descriptionCheck, status_comparisonCheck,
      CheckStatus.of_eq_passed, decide_eq_true_eq, clean_reversedChecks, clean_missingReceiptChecks,
      clean_receiptDateChecks, clean_receivedChecks, clean_quantityValueChecks]
    exact ⟨⟨hscore, ⟨⟨hok.notReversed, hok.active⟩, hok.dates⟩, hok.notOver⟩, (hok.quantity q hq).2,
      (hok.quantity q hq).1, hok.unitPrice, fun t ht => hok.lineTotal q t hq ht⟩

theorem keptChecks_of_notMem {checks : List ValidationCheck} (h : ∀ c ∈ checks, c.code ∉ discarded) :
    keptChecks checks = checks := by
  simpa [keptChecks, List.filter_eq_self] using h

theorem keptChecks_headerChecks [DecimalContext] {tol : Tolerances} :
    keptChecks (headerChecks invoice po tol) = headerChecks invoice po tol := by
  refine keptChecks_of_notMem fun c hc => ?_
  simp only [headerChecks, List.mem_append, List.mem_flatMap, List.mem_singleton] at hc
  rcases hc with (hc | ⟨line, _, hc⟩) | rfl
  · have hdisj : ∀ code ∈ financialCodes, code ∉ discarded := by decide
    exact hdisj _ (code_validate c hc)
  · unfold poLineAmountChecks at hc
    split at hc
    · simp at hc
    · simp only [List.mem_singleton] at hc
      simp [hc, discarded]
  · simp [currencyCheck, discarded]

/-- What is left of the two-way checks: those of the documents and of the invoice lines. -/
theorem keptChecks_base [DecimalContext] :
    keptChecks (matchInvoice T invoice po (basePolicy policy)).checks =
      headerChecks invoice po policy.toTolerances ++ lineIssues T invoice po policy.toTolerances := by
  have hchecks : (matchInvoice T invoice po (basePolicy policy)).checks =
      headerChecks invoice po policy.toTolerances ++ lineIssues T invoice po policy.toTolerances ++
        poUnmatchedChecks (selectedPairs T invoice po policy.toTolerances) :=
    candidatePairs_checks exists_headerCheck_of_line
  have hissues : keptChecks (lineIssues T invoice po policy.toTolerances) =
      lineIssues T invoice po policy.toTolerances := by
    have hdisj : ∀ code ∈ [ReasonCode.invoiceLineUnmatched, .extraInvoiceLine, .descriptionBelowThreshold,
      .descriptionAmbiguous], code ∉ discarded := by decide
    exact keptChecks_of_notMem fun c hc => hdisj _ (mem_lineIssues hc).2
  have hpo : keptChecks (poUnmatchedChecks (selectedPairs T invoice po policy.toTolerances)) = [] := by
    simp only [keptChecks, List.filter_eq_nil_iff, decide_eq_true_eq, not_not]
    intro c hc
    simp [code_poUnmatchedChecks hc, discarded]
  have happend : ∀ as bs, keptChecks (as ++ bs) = keptChecks as ++ keptChecks bs := fun as bs =>
    List.filter_append ..
  rw [hchecks, happend, happend, keptChecks_headerChecks, hissues, hpo, List.append_nil]

variable (T invoice po context policy) in
/-- What has to hold for an invoice whose pairs are `pairs` to be matched three-way. -/
structure AcceptableThreeWay [DecimalContext] (pairs : List (Pair invoice po)) : Prop where
  header : HeaderOk invoice po policy.toTolerances
  resolved : LinesResolved T invoice po policy.toTolerances
  pairs : ∀ p ∈ pairs, policy.descriptionSimilarityThreshold ≤ p.score ∧
    ∃ line ordered received available, ThreeWayPairOk context policy p line ordered received available

theorem matchInvoiceThreeWay_eq_some [DecimalContext] {r : MatchResult} {drafts : List AllocationDraft} :
    matchInvoiceThreeWay T invoice po context policy = some (r, drafts) ↔
      ∃ outcomes, List.Forall₂ (fun p o => threeWayAssignment invoice po context policy
          (assignment T policy.toTolerances p) = some o)
          (assignedPairs T invoice po policy.toTolerances) outcomes ∧
        r = MatchResult.ofChecks invoice po (headerChecks invoice po policy.toTolerances ++
          lineIssues T invoice po policy.toTolerances) (outcomes.map (·.1)) ∧
        drafts = if r.decision = .matched then outcomes.filterMap (·.2) else [] := by
  have hassign : (matchInvoice T invoice po (basePolicy policy)).lineAssignments =
      (assignedPairs T invoice po policy.toTolerances).map (assignment T policy.toTolerances) := rfl
  simp only [matchInvoiceThreeWay, Option.bind_eq_bind, Option.bind_eq_some_iff, keptChecks_base, hassign,
    Lists.mapM_eq_some_iff, List.forall₂_map_left_iff, Option.some.injEq, Prod.mk.injEq]
  constructor
  · rintro ⟨outcomes, h, rfl, rfl⟩
    exact ⟨outcomes, h, rfl, rfl⟩
  · rintro ⟨outcomes, h, rfl, hdrafts⟩
    exact ⟨outcomes, h, rfl, hdrafts.symm⟩

theorem represents_threeWay [DecimalContext] {r : MatchResult} {drafts : List AllocationDraft}
    (h : matchInvoiceThreeWay T invoice po context policy = some (r, drafts)) :
    Represents r.lineAssignments (assignedPairs T invoice po policy.toTolerances) := by
  obtain ⟨outcomes, houtcomes, rfl, -⟩ := matchInvoiceThreeWay_eq_some.1 h
  have hmap : (assignedPairs T invoice po policy.toTolerances).map (fun p => ((p.invoiceIndex : ℕ), p.poLine.id)) =
      outcomes.map fun o => (o.1.invoiceLineIndex, o.1.poLineId) := by
    refine Lists.map_eq_map_of_forall₂ (houtcomes.imp fun p o ho => ?_)
    obtain ⟨hindex, hid, -⟩ := threeWayAssignment_frame ho
    rw [hindex, hid]
    rfl
  simp only [Represents, MatchResult.ofChecks, List.map_map, hmap]
  rfl

theorem decision_threeWay [DecimalContext] {outcomes : List (LineAssignment × Option AllocationDraft)} :
    (MatchResult.ofChecks invoice po (headerChecks invoice po policy.toTolerances ++
        lineIssues T invoice po policy.toTolerances) (outcomes.map (·.1))).decision = .matched ↔
      (HeaderOk invoice po policy.toTolerances ∧ LinesResolved T invoice po policy.toTolerances) ∧
        ∀ o ∈ outcomes, Clean o.1.checks := by
  rw [MatchResult.ofChecks_decision, clean_append, clean_headerChecks, clean_lineIssues]
  simp only [List.forall_mem_map]

theorem HeaderOk.line [DecimalContext] {tol : Tolerances} (h : HeaderOk invoice po tol) (p : Pair invoice po) :
    LineOk tol p.invoiceLine := h.financials.lines _ (List.get_mem _ _)

/-- An invoice is matched three-way exactly when its selected pairs are acceptable. -/
theorem three_way_matched_iff [DecimalContext] (hids : (po.lines.map (·.id)).Nodup) :
    (∃ r drafts, matchInvoiceThreeWay T invoice po context policy = some (r, drafts) ∧
      r.decision = .matched) ↔
      AcceptableThreeWay T invoice po context policy (selectedPairs T invoice po policy.toTolerances) := by
  constructor
  · rintro ⟨r, drafts, h, hmatched⟩
    obtain ⟨outcomes, houtcomes, rfl, -⟩ := matchInvoiceThreeWay_eq_some.1 h
    obtain ⟨⟨hheader, hresolved⟩, hclean⟩ := decision_threeWay.1 hmatched
    refine ⟨hheader, hresolved, fun p hp => ?_⟩
    obtain ⟨q, -, -, hq, -⟩ := hheader.line p
    exact (threeWayAssignment_clean hids hq.1).1
      (Lists.exists_forall₂_iff.1 ⟨outcomes, houtcomes, hclean⟩ p (perm_assignedPairs.mem_iff.2 hp))
  · rintro ⟨hheader, hresolved, hpairs⟩
    have hall : ∀ p ∈ assignedPairs T invoice po policy.toTolerances, ∃ o,
        threeWayAssignment invoice po context policy (assignment T policy.toTolerances p) = some o ∧
          Clean o.1.checks := by
      intro p hp
      obtain ⟨q, -, -, hq, -⟩ := hheader.line p
      exact (threeWayAssignment_clean hids hq.1).2 (hpairs p (perm_assignedPairs.mem_iff.1 hp))
    obtain ⟨outcomes, houtcomes, hclean⟩ := Lists.exists_forall₂_iff.2 hall
    exact ⟨_, _, matchInvoiceThreeWay_eq_some.2 ⟨outcomes, houtcomes, rfl, rfl⟩,
      decision_threeWay.2 ⟨⟨hheader, hresolved⟩, hclean⟩⟩

/-- The drafts of a matched invoice: one for each assignment, with the quantity of its line. -/
theorem drafts_of_matched [DecimalContext] {r : MatchResult} {drafts : List AllocationDraft}
    (h : matchInvoiceThreeWay T invoice po context policy = some (r, drafts)) (hm : r.decision = .matched) :
    List.Forall₂ (fun a d => d.purchaseOrderLineId = a.poLineId ∧ d.invoiceLineIndex = a.invoiceLineIndex ∧
      ∃ l, invoice.lineItems[a.invoiceLineIndex]? = some l ∧ l.quantity.Holds d.quantity)
      r.lineAssignments drafts := by
  obtain ⟨outcomes, houtcomes, rfl, hdrafts⟩ := matchInvoiceThreeWay_eq_some.1 h
  obtain ⟨⟨hheader, -⟩, -⟩ := decision_threeWay.1 hm
  rw [hdrafts, if_pos hm]
  simp only [MatchResult.ofChecks]
  clear hm h hdrafts
  generalize assignedPairs T invoice po policy.toTolerances = pairs at houtcomes
  induction houtcomes with
  | nil => exact .nil
  | @cons p o ps os hpo _ ih =>
    obtain ⟨hindex, hid, l, hl, hdraft⟩ := threeWayAssignment_frame hpo
    have hmem : l ∈ invoice.lineItems := List.mem_of_getElem? hl
    obtain ⟨q, -, -, hq, -⟩ := hheader.financials.lines l hmem
    rw [ExtractedField.extractedValue_eq_some.2 hq.1, Option.map_some] at hdraft
    rw [List.filterMap_cons_some hdraft, List.map_cons]
    refine .cons ⟨hid.symm, hindex.symm, l, ?_, hq.1⟩ ih
    rw [hindex]
    exact hl

theorem drafts_of_needsReview [DecimalContext] {r : MatchResult} {drafts : List AllocationDraft}
    (h : matchInvoiceThreeWay T invoice po context policy = some (r, drafts)) (hm : r.decision = .needsReview) :
    drafts = [] := by
  obtain ⟨outcomes, -, -, rfl⟩ := matchInvoiceThreeWay_eq_some.1 h
  simp [hm]

end

end InvoiceOps
