import InvoiceOps.Lib.DecimalContext
import InvoiceOps.Lib.Iso
import InvoiceOps.Lib.Scientific
import InvoiceOps.Lib.Text
import InvoiceOps.Schemas.Extraction

/-! The schemas of supporting documents (`schemas/cases.py`, and what they take from
`schemas/matching.py`): what is extracted from a purchase order or a goods receipt, and the values a person
confirms. The validators are fields here, so only accepted values can be built. -/

namespace InvoiceOps

open Calendar

structure ExtractedPurchaseOrderLine where
  lineNumber : ExtractedField String
  description : ExtractedField String
  orderedQuantity : ExtractedField Decimal
  unitPrice : ExtractedField Decimal
  lineTotal : ExtractedField Decimal
deriving DecidableEq, Repr

structure ExtractedPurchaseOrder where
  poNumber : ExtractedField String
  issueDate : ExtractedField Date
  vendor : ExtractedField String
  buyer : ExtractedField String
  currency : ExtractedField String
  subtotal : ExtractedField Decimal
  tax : ExtractedField Decimal
  total : ExtractedField Decimal
  lineItems : List ExtractedPurchaseOrderLine
deriving DecidableEq, Repr

structure ExtractedGoodsReceiptLine where
  description : ExtractedField String
  receivedQuantity : ExtractedField Decimal
  acceptedQuantity : ExtractedField Decimal
  rejectedQuantity : ExtractedField Decimal
deriving DecidableEq, Repr

structure ExtractedGoodsReceipt where
  receiptNumber : ExtractedField String
  referencedPoNumber : ExtractedField String
  receivedDate : ExtractedField Date
  supplier : ExtractedField String
  lineItems : List ExtractedGoodsReceiptLine
deriving DecidableEq, Repr

/-- A text as `_non_blank` returns it. -/
def NonBlank (s : String) : Prop := s ≠ "" ∧ Text.strip s = s

instance (s : String) : Decidable (NonBlank s) := inferInstanceAs (Decidable (_ ∧ _))

theorem nonBlank_strip {s : String} (h : Text.strip s ≠ "") : NonBlank (Text.strip s) := ⟨h, Text.strip_strip s⟩

/-- A confirmed line; `lineTotalSet` says whether the request has the amount at all. -/
structure PurchaseOrderLineCreate where
  lineNumber : String
  description : String
  orderedQuantity : Decimal
  unitPrice : Decimal
  lineTotal : Option Decimal
  lineTotalSet : Bool
  texts : NonBlank lineNumber ∧ NonBlank description
  amounts : Decimal.zero < orderedQuantity ∧ Decimal.zero ≤ unitPrice ∧ ∀ t ∈ lineTotal, Decimal.zero ≤ t
  unset : lineTotalSet = false → lineTotal = none
deriving DecidableEq, Repr

/-- `[A-Z]{3}` -/
def isCurrencyCode (s : String) : Bool := s.length == 3 && s.toList.all Char.isUpper

/-- `validate_totals`: the totals agree with the tax on top of the subtotal or included in it. -/
def totalsConsistent (subtotal tax total : Option Decimal) : Bool :=
  let _ := DecimalContext.standard
  match subtotal, total with
  | some s, some t =>
    decide (DecimalContext.absDiff (DecimalContext.add s (tax.getD Decimal.zero)) t ≤ ⟨false, 2, -2⟩) ||
      decide (DecimalContext.absDiff s t ≤ ⟨false, 2, -2⟩)
  | _, _ => true

/-- `quantities_reconcile` -/
def quantitiesReconcile (received accepted rejected : Decimal) : Bool :=
  let _ := DecimalContext.standard
  decide ((DecimalContext.add accepted rejected).numEq received)

structure PurchaseOrderConfirmationValues where
  externalPoNumber : String
  vendorName : Option String
  currency : String
  lines : List PurchaseOrderLineCreate
  issueDate : Option Date
  buyerName : Option String
  subtotal : Option Decimal
  tax : Option Decimal
  total : Option Decimal
  texts : NonBlank externalPoNumber ∧ ∀ v ∈ vendorName, NonBlank v
  currency_code : isCurrencyCode currency = true
  buyer_length : ∀ b ∈ buyerName, b.length ≤ 255
  amounts : ∀ o ∈ [subtotal, tax, total], ∀ d ∈ o, Decimal.zero ≤ d
  lines_ne : lines ≠ []
  line_numbers : (lines.map (·.lineNumber)).Nodup
  consistent : totalsConsistent subtotal tax total = true
deriving DecidableEq, Repr

structure ReceiptConfirmationLine where
  purchaseOrderLineNumber : String
  description : String
  receivedQuantity : Decimal
  acceptedQuantity : Decimal
  rejectedQuantity : Decimal
  texts : (1 ≤ purchaseOrderLineNumber.length ∧ purchaseOrderLineNumber.length ≤ 50) ∧
    1 ≤ description.length ∧ description.length ≤ 500
  amounts : Decimal.zero < receivedQuantity ∧ Decimal.zero < acceptedQuantity ∧ Decimal.zero ≤ rejectedQuantity
  reconcile : quantitiesReconcile receivedQuantity acceptedQuantity rejectedQuantity = true
deriving DecidableEq, Repr

structure ReceiptConfirmationValues where
  externalReceiptNumber : String
  referencedPoNumber : String
  supplier : Option String
  receivedAt : SentDateTime
  lines : List ReceiptConfirmationLine
  texts : (1 ≤ externalReceiptNumber.length ∧ externalReceiptNumber.length ≤ 100) ∧
    (1 ≤ referencedPoNumber.length ∧ referencedPoNumber.length ≤ 100) ∧ ∀ s ∈ supplier, s.length ≤ 255
  lines_ne : lines ≠ []
  line_numbers : (lines.map fun l => Text.strip l.purchaseOrderLineNumber).Nodup
deriving DecidableEq, Repr

end InvoiceOps
