import InvoiceOps.Schemas.Matching

/-! Database rows (`models.py`). The constraints of the tables are fields of the rows where they
concern one row; those between rows are invariants of the store. -/

namespace InvoiceOps

open Calendar

/-- A purchase order with its lines in the order of their numbers. -/
structure PurchaseOrder where
  id : Uuid
  externalPoNumber : String
  vendorName : Option String
  currency : String
  createdAt : DateTime
  lines : List PurchaseOrderLine
  line_ids : (lines.map (·.id)).Nodup

def PurchaseOrder.toRead (po : PurchaseOrder) : PurchaseOrderRead where
  id := po.id
  externalPoNumber := po.externalPoNumber
  vendorName := po.vendorName
  currency := po.currency
  createdAt := po.createdAt
  lines := po.lines

structure GoodsReceiptLine where
  purchaseOrderLineId : Uuid
  acceptedQuantity : Decimal
  positive : 0 < acceptedQuantity.toRat

structure GoodsReceiptReversal where
  id : Uuid
deriving DecidableEq

structure GoodsReceipt where
  id : Uuid
  purchaseOrderId : Uuid
  externalReceiptNumber : String
  receivedAt : DateTime
  requestFingerprint : String
  lines : List GoodsReceiptLine
  reversal : Option GoodsReceiptReversal
  line_ids : (lines.map (·.purchaseOrderLineId)).Nodup

structure MatchRun where
  id : Uuid
  documentId : Uuid
  purchaseOrderId : Uuid
  extractionRunId : Uuid
  policyVersion : String
  matchingMode : MatchingMode
  matchingContextFingerprint : String
  riskPolicyVersion : String
  decision : MatchDecision
  result : MatchResult

structure ThreeWayAllocation where
  id : Uuid
  matchRunId : Uuid
  documentId : Uuid
  purchaseOrderId : Uuid
  extractionRunId : Uuid
  purchaseOrderLineId : Uuid
  invoiceLineIndex : ℕ
  allocatedQuantity : Decimal
  positive : 0 < allocatedQuantity.toRat

/-- The coefficient of a value with eight decimals, when it has no more of them. -/
def columnCoeff (d : Decimal) : Option ℕ :=
  if -8 ≤ d.exp then some (d.coeff * 10 ^ (d.exp + 8).toNat)
  else if 10 ^ (-8 - d.exp).toNat ∣ d.coeff then some (d.coeff / 10 ^ (-8 - d.exp).toNat)
  else none

/-- A value in a `Numeric(24, 8)` column, or `none` when it does not fit. -/
def numericColumn (d : Decimal) : Option Decimal :=
  (columnCoeff d).bind fun c => if c < 10 ^ 24 then some ⟨d.neg, c, -8⟩ else none

theorem columnCoeff_value {d : Decimal} {c : ℕ} (h : columnCoeff d = some c) :
    (c : ℚ) * (10 : ℚ) ^ (-8 : ℤ) = d.coeff * (10 : ℚ) ^ d.exp := by
  have h10 : (10 : ℚ) ≠ 0 := by norm_num
  unfold columnCoeff at h
  split_ifs at h with hexp hdvd
  · obtain rfl := Option.some.inj h
    have hk : d.exp = ((d.exp + 8).toNat : ℤ) + -8 := by omega
    conv_rhs => rw [hk, zpow_add₀ h10, zpow_natCast]
    push_cast
    ring
  · obtain ⟨m, hm⟩ := hdvd
    obtain rfl := Option.some.inj h
    have hk : (-8 : ℤ) = ((-8 - d.exp).toNat : ℤ) + d.exp := by omega
    have hdiv : d.coeff / 10 ^ (-8 - d.exp).toNat = m := by
      rw [hm]
      exact Nat.mul_div_cancel_left m (by positivity)
    have hval : (d.coeff : ℚ) = 10 ^ (-8 - d.exp).toNat * m := by exact_mod_cast hm
    rw [hdiv, hval]
    conv_lhs => rw [hk, zpow_add₀ h10, zpow_natCast]
    ring

theorem toRat_numericColumn {d e : Decimal} (h : numericColumn d = some e) : e.toRat = d.toRat := by
  obtain ⟨c, hc, h⟩ := Option.bind_eq_some_iff.1 h
  split_ifs at h
  obtain rfl := Option.some.inj h
  have hvalue := columnCoeff_value hc
  unfold Decimal.toRat Decimal.int
  cases d.neg
  · simpa using hvalue
  · simpa using hvalue

/-- It is a whole number of hundred-millionths of at most 24 digits. -/
theorem numericColumn_whole {d e : Decimal} (h : numericColumn d = some e) :
    ∃ m : ℤ, |m| < 10 ^ 24 ∧ e.toRat = m / 10 ^ 8 := by
  obtain ⟨c, -, h⟩ := Option.bind_eq_some_iff.1 h
  split_ifs at h with hlt
  obtain rfl := Option.some.inj h
  refine ⟨(⟨d.neg, c, -8⟩ : Decimal).int, ?_, ?_⟩
  · unfold Decimal.int
    cases d.neg
    · simpa using (by exact_mod_cast hlt : (c : ℤ) < 10 ^ 24)
    · simpa using (by exact_mod_cast hlt : (c : ℤ) < 10 ^ 24)
  · rw [Decimal.toRat, zpow_neg, div_eq_mul_inv]
    norm_num

/-- The quantity of a receipt on one purchase-order line, zero when it has no such line. -/
def GoodsReceipt.quantityOn (r : GoodsReceipt) (poLineId : Uuid) : ℚ :=
  ((r.lines.find? (·.purchaseOrderLineId = poLineId)).map (·.acceptedQuantity.toRat)).getD 0

/-- The active received quantity of a line: receipts that are reversed do not count. -/
def activeQuantity (receipts : List GoodsReceipt) (poLineId : Uuid) : ℚ :=
  ((receipts.filter (·.reversal.isNone)).map (·.quantityOn poLineId)).sum

def allocatedQuantity (allocations : List ThreeWayAllocation) (poLineId : Uuid) : ℚ :=
  ((allocations.filter (·.purchaseOrderLineId = poLineId)).map (·.allocatedQuantity.toRat)).sum

/-- Allocations of documents other than `documentId`. -/
def priorAllocations (allocations : List ThreeWayAllocation) (documentId : Uuid) : List ThreeWayAllocation :=
  allocations.filter (·.documentId ≠ documentId)

def currentAllocations (allocations : List ThreeWayAllocation) (documentId : Uuid) :
    List ThreeWayAllocation :=
  allocations.filter (·.documentId = documentId)

theorem GoodsReceipt.quantityOn_nonneg (r : GoodsReceipt) (poLineId : Uuid) : 0 ≤ r.quantityOn poLineId := by
  unfold quantityOn
  cases r.lines.find? (·.purchaseOrderLineId = poLineId) with
  | none => simp
  | some l => simpa using l.positive.le

end InvoiceOps
