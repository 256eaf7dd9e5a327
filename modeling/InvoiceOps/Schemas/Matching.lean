import InvoiceOps.Lib.Uuid
import InvoiceOps.Schemas.Extraction

/-! The matching schema (`schemas/matching.py`): policies, purchase orders, checks and results.
Python floats are rationals here. -/

namespace InvoiceOps

open Calendar

inductive MatchDecision
  | matched
  | needsReview
deriving DecidableEq, Repr

inductive MatchingMode
  | twoWay
  | threeWay
deriving DecidableEq, Repr

inductive CheckStatus
  | passed
  | failed
deriving DecidableEq, Repr

inductive CheckSeverity
  | info
  | error
deriving DecidableEq, Repr

inductive ReasonCode
  | extractionRowAssociationUnresolved
  | invoiceSchemaIncomplete
  | invoiceLineArithmeticMismatch
  | invoiceSubtotalMismatch
  | invoiceTotalMismatch
  | currencyMismatch
  | invoiceLineUnmatched
  | poLineUnmatched
  | descriptionBelowThreshold
  | descriptionAmbiguous
  | quantityMismatch
  | unitPriceMismatch
  | extraInvoiceLine
  | lineAmountMismatch
  | poLineAmountMismatch
  | negativeAmount
  | noGoodsReceipt
  | receiptLineMissing
  | goodsReceiptReversed
  | invoiceQuantityExceedsReceived
  | cumulativeQuantityExceedsReceived
  | receivedQuantityExceedsOrdered
  | receiptAfterInvoice
  | threeWayUnitPriceMismatch
  | threeWayLineAmountMismatch
  | receiptContextChanged
  | allocationReconciliationRequired
deriving DecidableEq, Repr

def ReasonCode.value : ReasonCode → String
  | .extractionRowAssociationUnresolved => "EXTRACTION_ROW_ASSOCIATION_UNRESOLVED"
  | .invoiceSchemaIncomplete => "INVOICE_SCHEMA_INCOMPLETE"
  | .invoiceLineArithmeticMismatch => "INVOICE_LINE_ARITHMETIC_MISMATCH"
  | .invoiceSubtotalMismatch => "INVOICE_SUBTOTAL_MISMATCH"
  | .invoiceTotalMismatch => "INVOICE_TOTAL_MISMATCH"
  | .currencyMismatch => "CURRENCY_MISMATCH"
  | .invoiceLineUnmatched => "INVOICE_LINE_UNMATCHED"
  | .poLineUnmatched => "PO_LINE_UNMATCHED"
  | .descriptionBelowThreshold => "DESCRIPTION_BELOW_THRESHOLD"
  | .descriptionAmbiguous => "DESCRIPTION_AMBIGUOUS"
  | .quantityMismatch => "QUANTITY_MISMATCH"
  | .unitPriceMismatch => "UNIT_PRICE_MISMATCH"
  | .extraInvoiceLine => "EXTRA_INVOICE_LINE"
  | .lineAmountMismatch => "LINE_AMOUNT_MISMATCH"
  | .poLineAmountMismatch => "PO_LINE_AMOUNT_MISMATCH"
  | .negativeAmount => "NEGATIVE_AMOUNT"
  | .noGoodsReceipt => "NO_GOODS_RECEIPT"
  | .receiptLineMissing => "RECEIPT_LINE_MISSING"
  | .goodsReceiptReversed => "GOODS_RECEIPT_REVERSED"
  | .invoiceQuantityExceedsReceived => "INVOICE_QUANTITY_EXCEEDS_RECEIVED"
  | .cumulativeQuantityExceedsReceived => "CUMULATIVE_QUANTITY_EXCEEDS_RECEIVED"
  | .receivedQuantityExceedsOrdered => "RECEIVED_QUANTITY_EXCEEDS_ORDERED"
  | .receiptAfterInvoice => "RECEIPT_AFTER_INVOICE"
  | .threeWayUnitPriceMismatch => "THREE_WAY_UNIT_PRICE_MISMATCH"
  | .threeWayLineAmountMismatch => "THREE_WAY_LINE_AMOUNT_MISMATCH"
  | .receiptContextChanged => "RECEIPT_CONTEXT_CHANGED"
  | .allocationReconciliationRequired => "ALLOCATION_RECONCILIATION_REQUIRED"

/-- The tolerances both policies share, with the bounds their fields declare. -/
structure Tolerances where
  amountAbsolute : Decimal
  quantityAbsolute : Decimal
  unitPriceRelative : Decimal
  descriptionSimilarityThreshold : ℚ
  ambiguityMargin : ℚ
  amount_nonneg : 0 ≤ amountAbsolute.toRat
  quantity_nonneg : 0 ≤ quantityAbsolute.toRat
  unitPrice_nonneg : 0 ≤ unitPriceRelative.toRat
  threshold_unit : 0 ≤ descriptionSimilarityThreshold ∧ descriptionSimilarityThreshold ≤ 1
  margin_unit : 0 ≤ ambiguityMargin ∧ ambiguityMargin ≤ 1
deriving DecidableEq, Repr

structure MatchingPolicy extends Tolerances where
  version : String
deriving DecidableEq, Repr

structure ThreeWayMatchingPolicy extends Tolerances where
  version : String
  allowPartialInvoice : Bool
deriving DecidableEq, Repr

/-- The default tolerances satisfy the bounds of their own fields. -/
def Tolerances.default : Tolerances where
  amountAbsolute := ⟨false, 2, -2⟩
  quantityAbsolute := ⟨false, 0, 0⟩
  unitPriceRelative := ⟨false, 1, -2⟩
  descriptionSimilarityThreshold := 17 / 20
  ambiguityMargin := 1 / 20
  amount_nonneg := by norm_num [Decimal.toRat, Decimal.int]
  quantity_nonneg := by norm_num [Decimal.toRat, Decimal.int]
  unitPrice_nonneg := by norm_num [Decimal.toRat, Decimal.int]
  threshold_unit := by norm_num
  margin_unit := by norm_num

def MatchingPolicy.default : MatchingPolicy := { Tolerances.default with version := "matching-v3" }

def ThreeWayMatchingPolicy.default : ThreeWayMatchingPolicy :=
  { Tolerances.default with version := "three-way-v3", allowPartialInvoice := true }

structure PurchaseOrderLine where
  id : Uuid
  purchaseOrderId : Uuid
  lineNumber : String
  description : String
  orderedQuantity : Decimal
  unitPrice : Decimal
  lineTotal : Option Decimal
deriving DecidableEq, Repr

/-- `PurchaseOrderRead`, as the engines receive it. -/
structure PurchaseOrderRead where
  id : Uuid
  externalPoNumber : String
  vendorName : Option String
  currency : String
  createdAt : DateTime
  lines : List PurchaseOrderLine
deriving DecidableEq, Repr

structure ValidationCheck where
  code : ReasonCode
  status : CheckStatus
  severity : CheckSeverity
  expected : Option String := none
  actual : Option String := none
  tolerance : Option String := none
  message : String
  invoiceLineIndex : Option ℕ := none
  poLineId : Option Uuid := none
  evidence : List EvidenceSpan := []
  receiptIds : List Uuid := []
  orderedQuantity : Option String := none
  receivedQuantity : Option String := none
  previouslyInvoicedQuantity : Option String := none
  availableQuantity : Option String := none
  invoiceQuantity : Option String := none
deriving DecidableEq, Repr

structure LineAssignment where
  invoiceLineIndex : ℕ
  poLineId : Uuid
  poLineNumber : String
  descriptionScore : ℚ
  exactDescription : Bool
  checks : List ValidationCheck
  evidence : List EvidenceSpan
deriving DecidableEq, Repr

structure MatchSummary where
  invoiceLineCount : ℕ
  poLineCount : ℕ
  assignedLineCount : ℕ
  passedCheckCount : ℕ
  failedCheckCount : ℕ
deriving DecidableEq, Repr

structure MatchResult where
  decision : MatchDecision
  summary : MatchSummary
  checks : List ValidationCheck
  lineAssignments : List LineAssignment
  reasonCodes : List ReasonCode
deriving DecidableEq, Repr

/-- Status and severity of a check that has been decided. -/
def CheckStatus.of (passed : Bool) : CheckStatus := if passed then .passed else .failed

def CheckSeverity.of (passed : Bool) : CheckSeverity := if passed then .info else .error

@[simp] theorem CheckStatus.of_eq_passed {b : Bool} : CheckStatus.of b = .passed ↔ b = true := by
  cases b <;> simp [CheckStatus.of]

@[simp] theorem CheckStatus.of_true : CheckStatus.of true = .passed := rfl

@[simp] theorem CheckStatus.of_false : CheckStatus.of false = .failed := rfl

theorem CheckStatus.ne_failed {s : CheckStatus} : s ≠ .failed ↔ s = .passed := by
  cases s <;> simp

/-- No check of the list failed. -/
def Clean (checks : List ValidationCheck) : Prop := ∀ c ∈ checks, c.status = .passed

@[simp] theorem clean_nil : Clean [] := by simp [Clean]

@[simp] theorem clean_cons {c : ValidationCheck} {cs : List ValidationCheck} :
    Clean (c :: cs) ↔ c.status = .passed ∧ Clean cs := by simp [Clean]

@[simp] theorem clean_append {cs ds : List ValidationCheck} :
    Clean (cs ++ ds) ↔ Clean cs ∧ Clean ds := by
  simp only [Clean, List.mem_append, or_imp, forall_and]

theorem clean_flatMap {α : Type} {xs : List α} {f : α → List ValidationCheck} :
    Clean (xs.flatMap f) ↔ ∀ x ∈ xs, Clean (f x) := by
  simp only [Clean, List.mem_flatMap, forall_exists_index, and_imp]
  exact ⟨fun h x hx c hc => h c x hx hc, fun h c x hx hc => h x hx c hc⟩

def failedChecks (checks : List ValidationCheck) : List ValidationCheck :=
  checks.filter fun c => c.status = .failed

def passedCount (checks : List ValidationCheck) : ℕ :=
  (checks.filter fun c => c.status = .passed).length

theorem failedChecks_eq_nil {checks : List ValidationCheck} :
    failedChecks checks = [] ↔ Clean checks := by
  simp only [failedChecks, List.filter_eq_nil_iff, decide_eq_true_eq, Clean, CheckStatus.ne_failed]

end InvoiceOps
