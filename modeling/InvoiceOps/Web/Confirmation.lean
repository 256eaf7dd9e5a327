import InvoiceOps.Cases.Corrections
import InvoiceOps.Lib.Lists

/-! The confirmation forms of the web client (`web/src/lib/confirmation.ts`): what a form accepts, the request
it becomes, and what it reports as changed. The service compares the request with the extraction once more
(`Cases/Corrections`); the form shows no change where the service sees none only on texts that trimming leaves
alone, on lists of lines of one length and on receipts at midnight. -/

namespace InvoiceOps

open Calendar

/-- The characters `trim` removes: white space and line ends. -/
def isTrimmed (c : Char) : Bool :=
  let n := c.toNat
  (9 ≤ n && n ≤ 13) || n == 32 || n == 0xa0 || n == 0x1680 || (0x2000 ≤ n && n ≤ 0x200a) || n == 0x2028 ||
    n == 0x2029 || n == 0x202f || n == 0x205f || n == 0x3000 || n == 0xfeff

def trim (s : String) : String := String.ofList (Text.stripBy isTrimmed s.toList)

/-- The length of a text in UTF-16. -/
def utf16Length (s : String) : ℕ := (s.toList.map fun c => if c.toNat < 0x10000 then 1 else 2).sum

/-- `value || null`; no proof has to evaluate it. -/
@[irreducible]
def orNull (s : String) : Option String := if s = "" then none else some s

structure DecimalParts where
  digits : ℕ
  scale : ℕ
deriving DecidableEq, Repr

/-- `^\d+(?:\.\d{1,12})?$`, read as a number of `scale` decimals. -/
def decimalParts (value : String) : Option DecimalParts :=
  let ip := value.toList.takeWhile Char.isDigit
  match value.toList.dropWhile Char.isDigit with
  | [] => if ip = [] then none else some ⟨Nat.ofDigitChars 10 ip 0, 0⟩
  | c :: fp =>
    if c = '.' ∧ ip ≠ [] ∧ fp ≠ [] ∧ fp.length ≤ 12 ∧ fp.all Char.isDigit = true then
      some ⟨Nat.ofDigitChars 10 (ip ++ fp) 0, fp.length⟩
    else none

/-- The digits at the larger of two scales. -/
def DecimalParts.adjusted (a : DecimalParts) (scale : ℕ) : ℕ := a.digits * 10 ^ (scale - a.scale)

/-- `none` is `null`. -/
def compareDecimal (left right : String) : Option Ordering :=
  match decimalParts left, decimalParts right with
  | some a, some b => some (compare (a.adjusted (max a.scale b.scale)) (b.adjusted (max a.scale b.scale)))
  | _, _ => none

def sameOptionalDecimal (left : Option String) (right : String) : Bool :=
  if left = none ∨ right = "" then decide (left.getD "" = right)
  else compareDecimal (left.getD "") right == some .eq

/-- The trailing zeros of a text with a point, and the point when nothing follows it. -/
def dropZeros (cs : List Char) : List Char :=
  match cs.reverse.dropWhile (· == '0') with
  | '.' :: rest => if cs.reverse.head? = some '0' then rest.reverse else cs
  | rest => rest.reverse

def formatDecimal (digits scale : ℕ) : String :=
  if scale = 0 then toString digits
  else
    let ds := Nat.toDigits 10 digits
    let padded := List.replicate (scale + 1 - ds.length) '0' ++ ds
    String.ofList (dropZeros (padded.take (padded.length - scale) ++ '.' :: padded.drop (padded.length - scale)))

def addDecimals (left right : String) : String :=
  match decimalParts left, decimalParts right with
  | some a, some b =>
    formatDecimal (a.adjusted (max a.scale b.scale) + b.adjusted (max a.scale b.scale)) (max a.scale b.scale)
  | _, _ => ""

/-- A day that exists. Years before 100 fall into the twentieth century and are refused. -/
def isCalendarDate (value : String) : Bool :=
  match Date.ofText value with
  | some d => decide (100 ≤ (ordinalToYmd d.ordinal).1)
  | none => false

/-- `YYYY-MM-DDTHH:MM` -/
def isUtcDateTimeInput (value : String) : Bool :=
  let cs := value.toList
  decide (cs.length = 16 ∧ cs[10]? = some 'T' ∧ cs[13]? = some ':' ∧ field cs 11 13 < 24 ∧ field cs 14 16 < 60) &&
    ((cs.drop 11).take 2 ++ cs.drop 14).all Char.isDigit && isCalendarDate (String.ofList (cs.take 10))

def identifier (s : String) : Bool := trim s ≠ ""

def nonnegativeDecimal (s : String) : Bool := (decimalParts s).isSome

def positiveDecimal (s : String) : Bool := (decimalParts s).any fun a => a.digits ≠ 0

def optionalDecimal (s : String) : Bool := s = "" || nonnegativeDecimal s

def optionalDate (s : String) : Bool := s = "" || isCalendarDate s

structure PurchaseOrderLineForm where
  lineNumber : String
  description : String
  orderedQuantity : String
  unitPrice : String
  lineTotal : String
deriving DecidableEq, Repr

structure PurchaseOrderForm where
  externalPoNumber : String
  vendorName : String
  buyerName : String
  issueDate : String
  currency : String
  subtotal : String
  tax : String
  total : String
  lines : List PurchaseOrderLineForm
  correctionReason : String
deriving DecidableEq, Repr

def PurchaseOrderLineForm.accepted (l : PurchaseOrderLineForm) : Bool :=
  identifier l.lineNumber && identifier l.description && positiveDecimal l.orderedQuantity &&
    nonnegativeDecimal l.unitPrice && optionalDecimal l.lineTotal

/-- `purchaseOrderFormSchema` -/
def PurchaseOrderForm.accepted (v : PurchaseOrderForm) : Bool :=
  identifier v.externalPoNumber && optionalDate v.issueDate && isCurrencyCode v.currency &&
    optionalDecimal v.subtotal && optionalDecimal v.tax && optionalDecimal v.total && !v.lines.isEmpty &&
    v.lines.all (·.accepted) && utf16Length (trim v.correctionReason) ≤ 2000

structure ReceiptLineForm where
  purchaseOrderLineNumber : String
  description : String
  receivedQuantity : String
  acceptedQuantity : String
  rejectedQuantity : String
deriving DecidableEq, Repr

structure ReceiptForm where
  externalReceiptNumber : String
  referencedPoNumber : String
  receivedAt : String
  supplier : String
  lines : List ReceiptLineForm
  correctionReason : String
deriving DecidableEq, Repr

def ReceiptLineForm.accepted (l : ReceiptLineForm) : Bool :=
  identifier l.purchaseOrderLineNumber && identifier l.description && positiveDecimal l.receivedQuantity &&
    positiveDecimal l.acceptedQuantity && nonnegativeDecimal l.rejectedQuantity &&
    compareDecimal (addDecimals l.acceptedQuantity l.rejectedQuantity) l.receivedQuantity == some .eq

/-- `receiptFormSchema` -/
def ReceiptForm.accepted (v : ReceiptForm) : Bool :=
  identifier v.externalReceiptNumber && identifier v.referencedPoNumber && isUtcDateTimeInput v.receivedAt &&
    !v.lines.isEmpty && v.lines.all (·.accepted) &&
    decide (v.lines.map fun l => trim l.purchaseOrderLineNumber).Nodup && utf16Length (trim v.correctionReason) ≤ 2000

structure PurchaseOrderLinePayload where
  lineNumber : String
  description : String
  orderedQuantity : String
  unitPrice : String
  lineTotal : Option String
deriving DecidableEq, Repr

structure PurchaseOrderPayload where
  externalPoNumber : String
  vendorName : Option String
  buyerName : Option String
  issueDate : Option String
  currency : String
  subtotal : Option String
  tax : Option String
  total : Option String
  lines : List PurchaseOrderLinePayload
deriving DecidableEq, Repr

def purchaseOrderLinePayload (l : PurchaseOrderLineForm) : PurchaseOrderLinePayload where
  lineNumber := trim l.lineNumber
  description := trim l.description
  orderedQuantity := l.orderedQuantity
  unitPrice := l.unitPrice
  lineTotal := orNull l.lineTotal

def purchaseOrderPayload (v : PurchaseOrderForm) : PurchaseOrderPayload where
  externalPoNumber := trim v.externalPoNumber
  vendorName := orNull (trim v.vendorName)
  buyerName := orNull (trim v.buyerName)
  issueDate := orNull v.issueDate
  currency := v.currency
  subtotal := orNull v.subtotal
  tax := orNull v.tax
  total := orNull v.total
  lines := v.lines.map purchaseOrderLinePayload

structure ReceiptPayload where
  externalReceiptNumber : String
  referencedPoNumber : String
  receivedAt : String
  supplier : Option String
  lines : List ReceiptLineForm
deriving DecidableEq, Repr

def receiptLinePayload (l : ReceiptLineForm) : ReceiptLineForm :=
  { l with purchaseOrderLineNumber := trim l.purchaseOrderLineNumber, description := trim l.description }

def receiptPayload (v : ReceiptForm) : ReceiptPayload where
  externalReceiptNumber := trim v.externalReceiptNumber
  referencedPoNumber := trim v.referencedPoNumber
  receivedAt := v.receivedAt ++ ":00Z"
  supplier := orNull (trim v.supplier)
  lines := v.lines.map receiptLinePayload

-- The validators of `schemas/cases.py` on the requests of the client; `none` is a refused request.

def readOptional {α : Type} (read : String → Option α) : Option String → Option (Option α)
  | none => some none
  | some s => (read s).map some

def PurchaseOrderLineCreate.ofPayload (p : PurchaseOrderLinePayload) : Option PurchaseOrderLineCreate := do
  let q ← Decimal.ofText p.orderedQuantity
  let u ← Decimal.ofText p.unitPrice
  let t ← readOptional Decimal.ofText p.lineTotal
  if h : (Text.strip p.lineNumber ≠ "" ∧ Text.strip p.description ≠ "") ∧
      Decimal.zero < q ∧ Decimal.zero ≤ u ∧ ∀ d ∈ t, Decimal.zero ≤ d then
    some ⟨Text.strip p.lineNumber, Text.strip p.description, q, u, t, true, h.1.imp nonBlank_strip nonBlank_strip, h.2,
      nofun⟩
  else none

theorem nonBlank_vendor {vendor : Option String} (h : ∀ v ∈ vendor.map Text.strip, v ≠ "") :
    ∀ v ∈ vendor.map Text.strip, NonBlank v := by
  intro v hv
  obtain ⟨s, -, rfl⟩ := Option.map_eq_some_iff.1 hv
  exact nonBlank_strip (h _ hv)

def PurchaseOrderConfirmationValues.ofPayload (p : PurchaseOrderPayload) :
    Option PurchaseOrderConfirmationValues := do
  let lines ← p.lines.mapM PurchaseOrderLineCreate.ofPayload
  let issueDate ← readOptional Date.ofText p.issueDate
  let subtotal ← readOptional Decimal.ofText p.subtotal
  let tax ← readOptional Decimal.ofText p.tax
  let total ← readOptional Decimal.ofText p.total
  if h : (Text.strip p.externalPoNumber ≠ "" ∧ ∀ v ∈ p.vendorName.map Text.strip, v ≠ "") ∧
      isCurrencyCode (Text.strip p.currency).toUpper = true ∧ (∀ b ∈ p.buyerName, b.length ≤ 255) ∧
      (∀ o ∈ [subtotal, tax, total], ∀ d ∈ o, Decimal.zero ≤ d) ∧
      lines ≠ [] ∧ (lines.map (·.lineNumber)).Nodup ∧ totalsConsistent subtotal tax total = true then
    some ⟨Text.strip p.externalPoNumber, p.vendorName.map Text.strip, (Text.strip p.currency).toUpper, lines, issueDate,
      p.buyerName, subtotal, tax, total, h.1.imp nonBlank_strip nonBlank_vendor, h.2.1, h.2.2.1, h.2.2.2.1,
      h.2.2.2.2.1, h.2.2.2.2.2.1, h.2.2.2.2.2.2⟩
  else none

def ReceiptConfirmationLine.ofPayload (p : ReceiptLineForm) : Option ReceiptConfirmationLine := do
  let r ← Decimal.ofText p.receivedQuantity
  let a ← Decimal.ofText p.acceptedQuantity
  let j ← Decimal.ofText p.rejectedQuantity
  if h : ((1 ≤ p.purchaseOrderLineNumber.length ∧ p.purchaseOrderLineNumber.length ≤ 50) ∧
      1 ≤ p.description.length ∧ p.description.length ≤ 500) ∧
      (Decimal.zero < r ∧ Decimal.zero < a ∧ Decimal.zero ≤ j) ∧ quantitiesReconcile r a j = true then
    some ⟨p.purchaseOrderLineNumber, p.description, r, a, j, h.1, h.2.1, h.2.2⟩
  else none

def ReceiptConfirmationValues.ofPayload (p : ReceiptPayload) : Option ReceiptConfirmationValues := do
  let lines ← p.lines.mapM ReceiptConfirmationLine.ofPayload
  let receivedAt ← SentDateTime.ofUtcText p.receivedAt
  if h : ((1 ≤ p.externalReceiptNumber.length ∧ p.externalReceiptNumber.length ≤ 100) ∧
      (1 ≤ p.referencedPoNumber.length ∧ p.referencedPoNumber.length ≤ 100) ∧ ∀ s ∈ p.supplier, s.length ≤ 255) ∧
      lines ≠ [] ∧ (lines.map fun l : ReceiptConfirmationLine => Text.strip l.purchaseOrderLineNumber).Nodup then
    some ⟨p.externalReceiptNumber, p.referencedPoNumber, p.supplier, receivedAt, lines, h.1, h.2.1, h.2.2⟩
  else none

structure ChangeSummary where
  changedFields : ℕ
  retainedFields : ℕ
  addedLines : ℤ
  removedLines : ℤ
  materiallyChanged : Bool
deriving DecidableEq, Repr

/-- A value of the extraction as the client has it, the value of the form, and whether they are decimals. -/
abbrev ComparedPair := Option String × String × Bool

def ComparedPair.changed (p : ComparedPair) : Bool :=
  if p.2.2 then !sameOptionalDecimal p.1 p.2.1 else decide (p.1.getD "" ≠ p.2.1)

def summarize (pairs : List ComparedPair) (oldLines : ℕ) (sourceIndices : List (Option ℕ)) : ChangeSummary :=
  let changedFields := (pairs.filter (·.changed)).length
  let retainedLines := (sourceIndices.filterMap id).dedup.length
  let addedLines : ℤ := sourceIndices.length - retainedLines
  let removedLines : ℤ := oldLines - retainedLines
  { changedFields := changedFields
    retainedFields := pairs.length - changedFields
    addedLines := addedLines
    removedLines := removedLines
    materiallyChanged := decide (0 < changedFields ∨ 0 < addedLines ∨ 0 < removedLines) }

/-- The default: every line comes from the extracted line at its own place. -/
def ownIndices (n : ℕ) : List (Option ℕ) := (List.range n).map some

/-- The extracted line a form line comes from, if it is there. -/
def sourcesOf {α β : Type} (sources : List α) (lines : List β) (sourceIndices : List (Option ℕ)) : List (α × β) :=
  (lines.zip sourceIndices).filterMap fun r => (r.2.bind fun i => sources[i]?).map fun source => (source, r.1)

def orderLinePairs (source : ExtractedPurchaseOrderLine) (line : PurchaseOrderLineForm) : List ComparedPair :=
  [(source.lineNumber.value, line.lineNumber, false), (source.description.value, line.description, false),
    (source.orderedQuantity.value.map Decimal.str, line.orderedQuantity, false),
    (source.unitPrice.value.map Decimal.str, line.unitPrice, false),
    (source.lineTotal.value.map Decimal.str, line.lineTotal, true)]

def orderHeaderPairs (extracted : ExtractedPurchaseOrder) (v : PurchaseOrderForm) : List ComparedPair :=
  [(extracted.poNumber.value, v.externalPoNumber, false), (extracted.vendor.value, v.vendorName, false),
    (extracted.buyer.value, v.buyerName, false), (extracted.issueDate.value.map Date.text, v.issueDate, false),
    (extracted.currency.value, v.currency, false), (extracted.subtotal.value.map Decimal.str, v.subtotal, false),
    (extracted.tax.value.map Decimal.str, v.tax, false), (extracted.total.value.map Decimal.str, v.total, false)]

def purchaseOrderChanges (extracted : ExtractedPurchaseOrder) (v : PurchaseOrderForm)
    (sourceIndices : List (Option ℕ)) : ChangeSummary :=
  summarize (orderHeaderPairs extracted v ++ (sourcesOf extracted.lineItems v.lines sourceIndices).flatMap
    fun r => orderLinePairs r.1 r.2) extracted.lineItems.length sourceIndices

def receiptLinePairs (source : ExtractedGoodsReceiptLine) (line : ReceiptLineForm) : List ComparedPair :=
  [(source.description.value, line.description, false),
    (source.receivedQuantity.value.map Decimal.str, line.receivedQuantity, false),
    (source.acceptedQuantity.value.map Decimal.str, line.acceptedQuantity, false),
    (source.rejectedQuantity.value.map Decimal.str, line.rejectedQuantity, false)]

/-- Of the time of receipt only the day is compared. -/
def receiptHeaderPairs (extracted : ExtractedGoodsReceipt) (v : ReceiptForm) : List ComparedPair :=
  [(extracted.receiptNumber.value, v.externalReceiptNumber, false),
    (extracted.referencedPoNumber.value, v.referencedPoNumber, false),
    (extracted.receivedDate.value.map Date.text, String.ofList (v.receivedAt.toList.take 10), false),
    (extracted.supplier.value, v.supplier, false)]

def receiptChanges (extracted : ExtractedGoodsReceipt) (v : ReceiptForm) (sourceIndices : List (Option ℕ)) :
    ChangeSummary :=
  summarize (receiptHeaderPairs extracted v ++ (sourcesOf extracted.lineItems v.lines sourceIndices).flatMap
    fun r => receiptLinePairs r.1 r.2) extracted.lineItems.length sourceIndices

example : formatDecimal 1005 2 = "10.05" ∧ addDecimals "0.5" "0.50" = "1" := by decide

theorem filterMap_ownIndices (n : ℕ) : (ownIndices n).filterMap id = List.range n := by
  simp [ownIndices, List.filterMap_map]

/-- With its own indices each form line is compared with the extracted line at its place. -/
theorem sourcesOf_ownIndices {α β : Type} (sources : List α) (lines : List β) :
    sourcesOf sources lines (ownIndices lines.length) = sources.zip lines := by
  have hfrom : ∀ k, sourcesOf sources lines ((List.range' k lines.length).map some) = (sources.drop k).zip lines := by
    induction lines with
    | nil => simp [sourcesOf]
    | cons line lines ih =>
      intro k
      have hrest := ih (k + 1)
      simp only [sourcesOf, List.length_cons, List.range'_succ, List.map_cons, List.zip_cons_cons,
        List.filterMap_cons, Option.bind_some] at hrest ⊢
      rw [hrest]
      rcases Nat.lt_or_ge k sources.length with hk | hk
      · rw [List.getElem?_eq_getElem hk, List.drop_eq_getElem_cons hk]
        rfl
      · rw [List.getElem?_eq_none hk, List.drop_eq_nil_of_le hk, List.drop_eq_nil_of_le (by omega)]
        rfl
  rw [ownIndices, List.range_eq_range', hfrom 0, List.drop_zero]

/-- More lines than were extracted are neither added nor removed ones. -/
theorem summarize_unchanged {pairs : List ComparedPair} {old n : ℕ} :
    (summarize pairs old (ownIndices n)).materiallyChanged = false ↔ (∀ p ∈ pairs, p.changed = false) ∧ old ≤ n := by
  have hcount : (List.range n).dedup.length = n := by
    rw [List.nodup_range.dedup, List.length_range]
  have hlength : (ownIndices n).length = n := by simp [ownIndices]
  simp only [summarize, filterMap_ownIndices, hcount, hlength, decide_eq_false_iff_not, not_or, not_lt, Nat.le_zero,
    List.length_eq_zero_iff, List.filter_eq_nil_iff, Bool.not_eq_true, sub_self, le_refl, true_and, sub_nonpos,
    Nat.cast_le]

/-- A value of the form that repeats the extracted text, nothing for a missing one. -/
def RepeatsText (value : Option String) (text : String) : Prop := value.getD "" = text

structure RepeatsOrderLine (source : ExtractedPurchaseOrderLine) (line : PurchaseOrderLineForm) : Prop where
  lineNumber : RepeatsText source.lineNumber.value line.lineNumber
  description : RepeatsText source.description.value line.description
  orderedQuantity : RepeatsText (source.orderedQuantity.value.map Decimal.str) line.orderedQuantity
  unitPrice : RepeatsText (source.unitPrice.value.map Decimal.str) line.unitPrice
  lineTotal : sameOptionalDecimal (source.lineTotal.value.map Decimal.str) line.lineTotal = true

/-- The form repeats the extraction, line by line as far as both go, and drops no line. -/
structure RepeatsOrder (extracted : ExtractedPurchaseOrder) (v : PurchaseOrderForm) : Prop where
  poNumber : RepeatsText extracted.poNumber.value v.externalPoNumber
  vendor : RepeatsText extracted.vendor.value v.vendorName
  buyer : RepeatsText extracted.buyer.value v.buyerName
  issueDate : RepeatsText (extracted.issueDate.value.map Date.text) v.issueDate
  currency : RepeatsText extracted.currency.value v.currency
  subtotal : RepeatsText (extracted.subtotal.value.map Decimal.str) v.subtotal
  tax : RepeatsText (extracted.tax.value.map Decimal.str) v.tax
  total : RepeatsText (extracted.total.value.map Decimal.str) v.total
  lines : ∀ r ∈ extracted.lineItems.zip v.lines, RepeatsOrderLine r.1 r.2
  all : extracted.lineItems.length ≤ v.lines.length

structure RepeatsReceiptLine (source : ExtractedGoodsReceiptLine) (line : ReceiptLineForm) : Prop where
  description : RepeatsText source.description.value line.description
  received : RepeatsText (source.receivedQuantity.value.map Decimal.str) line.receivedQuantity
  accepted : RepeatsText (source.acceptedQuantity.value.map Decimal.str) line.acceptedQuantity
  rejected : RepeatsText (source.rejectedQuantity.value.map Decimal.str) line.rejectedQuantity

structure RepeatsReceipt (extracted : ExtractedGoodsReceipt) (v : ReceiptForm) : Prop where
  receiptNumber : RepeatsText extracted.receiptNumber.value v.externalReceiptNumber
  referencedPoNumber : RepeatsText extracted.referencedPoNumber.value v.referencedPoNumber
  receivedDate : RepeatsText (extracted.receivedDate.value.map Date.text) (String.ofList (v.receivedAt.toList.take 10))
  supplier : RepeatsText extracted.supplier.value v.supplier
  lines : ∀ r ∈ extracted.lineItems.zip v.lines, RepeatsReceiptLine r.1 r.2
  all : extracted.lineItems.length ≤ v.lines.length

theorem changed_text {value : Option String} {text : String} :
    ComparedPair.changed (value, text, false) = false ↔ RepeatsText value text := by
  simp [ComparedPair.changed, RepeatsText]

theorem changed_decimal {value : Option String} {text : String} :
    ComparedPair.changed (value, text, true) = false ↔ sameOptionalDecimal value text = true := by
  simp [ComparedPair.changed]

theorem purchaseOrderChanges_unchanged {extracted : ExtractedPurchaseOrder} {v : PurchaseOrderForm} :
    (purchaseOrderChanges extracted v (ownIndices v.lines.length)).materiallyChanged = false ↔
      RepeatsOrder extracted v := by
  have hline : ∀ r : ExtractedPurchaseOrderLine × PurchaseOrderLineForm,
      (∀ p ∈ orderLinePairs r.1 r.2, ComparedPair.changed p = false) ↔ RepeatsOrderLine r.1 r.2 := by
    intro r
    simp only [orderLinePairs, List.forall_mem_cons, List.not_mem_nil, false_implies, implies_true, and_true,
      changed_text, changed_decimal]
    constructor
    · rintro ⟨h1, h2, h3, h4, h5⟩
      exact ⟨h1, h2, h3, h4, h5⟩
    · rintro ⟨h1, h2, h3, h4, h5⟩
      exact ⟨h1, h2, h3, h4, h5⟩
  simp only [purchaseOrderChanges, summarize_unchanged, sourcesOf_ownIndices, List.forall_mem_append,
    List.forall_mem_flatMap, hline, orderHeaderPairs, List.forall_mem_cons, List.not_mem_nil, false_implies,
    implies_true, and_true, changed_text]
  constructor
  · rintro ⟨⟨⟨h1, h2, h3, h4, h5, h6, h7, h8⟩, hlines⟩, hall⟩
    exact ⟨h1, h2, h3, h4, h5, h6, h7, h8, hlines, hall⟩
  · rintro ⟨h1, h2, h3, h4, h5, h6, h7, h8, hlines, hall⟩
    exact ⟨⟨⟨h1, h2, h3, h4, h5, h6, h7, h8⟩, hlines⟩, hall⟩

theorem receiptChanges_unchanged {extracted : ExtractedGoodsReceipt} {v : ReceiptForm} :
    (receiptChanges extracted v (ownIndices v.lines.length)).materiallyChanged = false ↔
      RepeatsReceipt extracted v := by
  have hline : ∀ r : ExtractedGoodsReceiptLine × ReceiptLineForm,
      (∀ p ∈ receiptLinePairs r.1 r.2, ComparedPair.changed p = false) ↔ RepeatsReceiptLine r.1 r.2 := by
    intro r
    simp only [receiptLinePairs, List.forall_mem_cons, List.not_mem_nil, false_implies, implies_true, and_true,
      changed_text]
    constructor
    · rintro ⟨h1, h2, h3, h4⟩
      exact ⟨h1, h2, h3, h4⟩
    · rintro ⟨h1, h2, h3, h4⟩
      exact ⟨h1, h2, h3, h4⟩
  simp only [receiptChanges, summarize_unchanged, sourcesOf_ownIndices, List.forall_mem_append,
    List.forall_mem_flatMap, hline, receiptHeaderPairs, List.forall_mem_cons, List.not_mem_nil, false_implies,
    implies_true, and_true, changed_text]
  constructor
  · rintro ⟨⟨⟨h1, h2, h3, h4⟩, hlines⟩, hall⟩
    exact ⟨h1, h2, h3, h4, hlines, hall⟩
  · rintro ⟨h1, h2, h3, h4, hlines, hall⟩
    exact ⟨⟨⟨h1, h2, h3, h4⟩, hlines⟩, hall⟩

/-- A repeated text that is required reaches the service as it was extracted when the two strips leave it alone. -/
theorem required_text (norm : String → String) {value : Option String} {v w : String} (h : RepeatsText value v)
    (hread : w = norm v) (hempty : norm "" = "") (hne : w ≠ "") : value = some w ↔ ∀ s ∈ value, norm s = s := by
  subst h hread
  cases value with
  | none => exact absurd hempty hne
  | some s => simp [eq_comm]

/-- An optional text must also not be empty: an empty one is sent as `null`. -/
theorem optional_text (norm : String → String) {value w : Option String} {v : String} (h : RepeatsText value v)
    (hread : w = (orNull (trim v)).map norm) (hempty : norm "" = "") :
    value = w ↔ ∀ s ∈ value, s ≠ "" ∧ norm (trim s) = s := by
  have htrim : trim "" = "" := by decide
  subst h hread
  cases value with
  | none => simp [orNull, htrim]
  | some s =>
    simp only [Option.getD_some, Option.mem_def, Option.some.injEq, forall_eq', orNull]
    split_ifs with hs
    · simp only [Option.map_none, reduceCtorEq, false_iff, not_and, hs, hempty]
      exact fun hne heq => hne heq.symm
    · simp only [Option.map_some, Option.some.injEq]
      refine ⟨fun heq => ⟨?_, heq.symm⟩, fun heq => heq.2.symm⟩
      rintro rfl
      exact hs htrim

theorem ofText_empty : Decimal.ofText "" = none := by decide

theorem str_ne_empty (d : Decimal) : d.str ≠ "" := by
  intro h
  have hread := d.ofText_str
  rw [h, ofText_empty] at hread
  cases hread

/-- A repeated decimal is read as the one extracted. -/
theorem required_decimal {value : Option Decimal} {v : String} {d : Decimal} (h : RepeatsText (value.map Decimal.str) v)
    (hread : Decimal.ofText v = some d) : value = some d := by
  subst h
  cases value with
  | none => rw [Option.map_none, Option.getD_none, ofText_empty] at hread; cases hread
  | some e => rw [Option.map_some, Option.getD_some, Decimal.ofText_str] at hread; exact hread

/-- An optional value whose text is never empty is read as the one extracted. -/
theorem optional_value {α : Type} {value d : Option α} {v : String} {print : α → String} {read : String → Option α}
    (hprint : ∀ a, print a ≠ "" ∧ read (print a) = some a) (h : RepeatsText (value.map print) v)
    (hread : readOptional read (orNull v) = some d) : value = d := by
  subst h
  cases value with
  | none =>
    simp only [Option.map_none, Option.getD_none, orNull, if_true, readOptional] at hread
    exact Option.some.inj hread
  | some a =>
    simp only [Option.map_some, Option.getD_some, orNull, (hprint a).1, if_false, readOptional,
      (hprint a).2] at hread
    exact Option.some.inj hread

theorem optional_decimal {value d : Option Decimal} {v : String} (h : RepeatsText (value.map Decimal.str) v)
    (hread : readOptional Decimal.ofText (orNull v) = some d) : value = d := by
  have hprint : ∀ a : Decimal, a.str ≠ "" ∧ Decimal.ofText a.str = some a := fun a => ⟨str_ne_empty a, a.ofText_str⟩
  exact optional_value hprint h hread

theorem optional_date {value d : Option Date} {v : String} (h : RepeatsText (value.map Date.text) v)
    (hread : readOptional Date.ofText (orNull v) = some d) : value = d := by
  have hprint : ∀ a : Date, a.text ≠ "" ∧ Date.ofText a.text = some a := by
    intro a
    refine ⟨fun h0 => ?_, Date.ofText_eq_some.2 rfl⟩
    have hlength := congrArg (fun s => s.toList.length) h0
    simp [Date.text, length_dateChars] at hlength
  exact optional_value hprint h hread

/-- What the client reads as a decimal, the service reads as the same number. -/
theorem ofText_of_decimalParts {v : String} {a : DecimalParts} (h : decimalParts v = some a) :
    Decimal.ofText v = some ⟨false, a.digits, -(a.scale : ℤ)⟩ := by
  have hip : ∀ c ∈ v.toList.takeWhile Char.isDigit, c.isDigit = true := fun c hc => List.mem_takeWhile_imp hc
  have hsplit := List.takeWhile_append_dropWhile (p := Char.isDigit) (l := v.toList)
  unfold decimalParts at h
  simp only at h
  generalize v.toList.takeWhile Char.isDigit = ip at hip hsplit h
  split at h
  · next hrest =>
    split_ifs at h with hne
    obtain rfl := Option.some.inj h
    have hsign := @Decimal.readChars_sign false ip (by simpa using Decimal.head_of_digits (r := []) hne hip)
    rw [hrest, List.append_nil] at hsplit
    rw [Decimal.ofText, ← hsplit]
    exact hsign.trans (Decimal.readUnsigned_digits false hne hip)
  · next c fp hrest =>
    split_ifs at h with hok
    obtain ⟨rfl, hne, -, -, hall⟩ := hok
    obtain rfl := Option.some.inj h
    have hfp : ∀ c ∈ fp, c.isDigit = true := List.all_eq_true.1 hall
    have hsign := @Decimal.readChars_sign false _ (Decimal.head_of_digits (r := '.' :: fp) hne hip)
    rw [hrest] at hsplit
    rw [Decimal.ofText, ← hsplit]
    exact hsign.trans (Decimal.readUnsigned_point false hne hip hfp)

theorem toRat_parts (a : DecimalParts) (n : ℕ) (h : a.scale ≤ n) :
    (⟨false, a.digits, -(a.scale : ℤ)⟩ : Decimal).toRat * 10 ^ n = a.adjusted n := by
  have hn : n = (n - a.scale) + a.scale := by omega
  simp only [Decimal.toRat, Decimal.int, Bool.false_eq_true, if_false, DecimalParts.adjusted, zpow_neg, zpow_natCast]
  conv_lhs => rw [hn, pow_add]
  push_cast
  field_simp

/-- Amounts the client takes to be the same are the same number for the service. -/
theorem compared_amount {value d : Option Decimal} {v : String}
    (h : sameOptionalDecimal (value.map Decimal.str) v = true)
    (hread : readOptional Decimal.ofText (orNull v) = some d) :
    value.map Decimal.toRat = d.map Decimal.toRat := by
  unfold sameOptionalDecimal at h
  split_ifs at h with hnull
  · have hsame : RepeatsText (value.map Decimal.str) v := by simpa [RepeatsText] using h
    rw [optional_decimal hsame hread]
  · rw [not_or] at hnull
    cases value with
    | none => exact absurd rfl hnull.1
    | some e =>
      simp only [orNull, hnull.2, if_false, readOptional] at hread
      rw [Option.map_some, Option.getD_some, compareDecimal] at h
      split at h
      · next a b ha hb =>
        have he := e.ofText_str
        rw [ofText_of_decimalParts ha] at he
        rw [ofText_of_decimalParts hb, Option.map_some] at hread
        obtain rfl := Option.some.inj he
        obtain rfl := Option.some.inj hread
        have hcompare : a.adjusted (max a.scale b.scale) = b.adjusted (max a.scale b.scale) := by
          simpa [compare_eq_iff_eq] using h
        have hpow : ((10 : ℚ) ^ (max a.scale b.scale)) ≠ 0 := by positivity
        have hrat := congrArg (Nat.cast : ℕ → ℚ) hcompare
        rw [← toRat_parts a _ (le_max_left _ _), ← toRat_parts b _ (le_max_right _ _)] at hrat
        rw [Option.map_some, Option.map_some, mul_right_cancel₀ hpow hrat]
      · cases h

section

variable {p : PurchaseOrderLinePayload} {c : PurchaseOrderLineCreate}

structure ReadsOrderLine (p : PurchaseOrderLinePayload) (c : PurchaseOrderLineCreate) : Prop where
  lineNumber : c.lineNumber = Text.strip p.lineNumber
  description : c.description = Text.strip p.description
  orderedQuantity : Decimal.ofText p.orderedQuantity = some c.orderedQuantity
  unitPrice : Decimal.ofText p.unitPrice = some c.unitPrice
  lineTotal : readOptional Decimal.ofText p.lineTotal = some c.lineTotal
  lineTotalSet : c.lineTotalSet = true

theorem readsOrderLine (h : PurchaseOrderLineCreate.ofPayload p = some c) : ReadsOrderLine p c := by
  simp only [PurchaseOrderLineCreate.ofPayload, Option.bind_eq_bind, Option.bind_eq_some_iff] at h
  obtain ⟨q, hq, u, hu, t, ht, h⟩ := h
  split_ifs at h
  obtain rfl := Option.some.inj h
  exact ⟨rfl, rfl, hq, hu, ht, rfl⟩

end

structure ReadsOrder (p : PurchaseOrderPayload) (c : PurchaseOrderConfirmationValues) : Prop where
  poNumber : c.externalPoNumber = Text.strip p.externalPoNumber
  vendor : c.vendorName = p.vendorName.map Text.strip
  currency : c.currency = (Text.strip p.currency).toUpper
  buyer : c.buyerName = p.buyerName
  issueDate : readOptional Date.ofText p.issueDate = some c.issueDate
  subtotal : readOptional Decimal.ofText p.subtotal = some c.subtotal
  tax : readOptional Decimal.ofText p.tax = some c.tax
  total : readOptional Decimal.ofText p.total = some c.total
  lines : List.Forall₂ (fun l line => PurchaseOrderLineCreate.ofPayload l = some line) p.lines c.lines

theorem readsOrder {p : PurchaseOrderPayload} {c : PurchaseOrderConfirmationValues}
    (h : PurchaseOrderConfirmationValues.ofPayload p = some c) : ReadsOrder p c := by
  simp only [PurchaseOrderConfirmationValues.ofPayload, Option.bind_eq_bind, Option.bind_eq_some_iff] at h
  obtain ⟨lines, hlines, date, hdate, subtotal, hsubtotal, tax, htax, total, htotal, h⟩ := h
  split_ifs at h
  obtain rfl := Option.some.inj h
  exact ⟨rfl, rfl, rfl, rfl, hdate, hsubtotal, htax, htotal, Lists.mapM_eq_some_iff.1 hlines⟩

structure ReadsReceiptLine (p : ReceiptLineForm) (c : ReceiptConfirmationLine) : Prop where
  description : c.description = p.description
  received : Decimal.ofText p.receivedQuantity = some c.receivedQuantity
  accepted : Decimal.ofText p.acceptedQuantity = some c.acceptedQuantity
  rejected : Decimal.ofText p.rejectedQuantity = some c.rejectedQuantity

theorem readsReceiptLine {p : ReceiptLineForm} {c : ReceiptConfirmationLine}
    (h : ReceiptConfirmationLine.ofPayload p = some c) : ReadsReceiptLine p c := by
  simp only [ReceiptConfirmationLine.ofPayload, Option.bind_eq_bind, Option.bind_eq_some_iff] at h
  obtain ⟨r, hr, a, ha, j, hj, h⟩ := h
  split_ifs at h
  obtain rfl := Option.some.inj h
  exact ⟨rfl, hr, ha, hj⟩

structure ReadsReceipt (p : ReceiptPayload) (c : ReceiptConfirmationValues) : Prop where
  receiptNumber : c.externalReceiptNumber = p.externalReceiptNumber
  referencedPoNumber : c.referencedPoNumber = p.referencedPoNumber
  supplier : c.supplier = p.supplier
  receivedAt : SentDateTime.ofUtcText p.receivedAt = some c.receivedAt
  lines : List.Forall₂ (fun l line => ReceiptConfirmationLine.ofPayload l = some line) p.lines c.lines

theorem readsReceipt {p : ReceiptPayload} {c : ReceiptConfirmationValues}
    (h : ReceiptConfirmationValues.ofPayload p = some c) : ReadsReceipt p c := by
  simp only [ReceiptConfirmationValues.ofPayload, Option.bind_eq_bind, Option.bind_eq_some_iff] at h
  obtain ⟨lines, hlines, at', hat, h⟩ := h
  split_ifs at h
  obtain rfl := Option.some.inj h
  exact ⟨rfl, rfl, rfl, hat, Lists.mapM_eq_some_iff.1 hlines⟩

def PlainOrderLine (l : ExtractedPurchaseOrderLine) : Prop :=
  (∀ s ∈ l.lineNumber.value, Text.strip (trim s) = s) ∧ ∀ s ∈ l.description.value, Text.strip (trim s) = s

/-- The texts of an order that trimming leaves alone; an optional one is not empty. -/
structure PlainOrder (extracted : ExtractedPurchaseOrder) : Prop where
  poNumber : ∀ s ∈ extracted.poNumber.value, Text.strip (trim s) = s
  vendor : ∀ s ∈ extracted.vendor.value, s ≠ "" ∧ Text.strip (trim s) = s
  buyer : ∀ s ∈ extracted.buyer.value, s ≠ "" ∧ trim s = s
  lines : ∀ l ∈ extracted.lineItems, PlainOrderLine l

/-- The service does not strip the texts of a receipt once more. -/
structure PlainReceipt (extracted : ExtractedGoodsReceipt) : Prop where
  receiptNumber : ∀ s ∈ extracted.receiptNumber.value, trim s = s
  referencedPoNumber : ∀ s ∈ extracted.referencedPoNumber.value, trim s = s
  supplier : ∀ s ∈ extracted.supplier.value, s ≠ "" ∧ trim s = s
  lines : ∀ l ∈ extracted.lineItems, ∀ s ∈ l.description.value, trim s = s

section

variable {extracted : ExtractedPurchaseOrder} {v : PurchaseOrderForm} {c : PurchaseOrderConfirmationValues}

theorem trim_empty : trim "" = "" := by decide

theorem strip_trim_empty : Text.strip (trim "") = "" := by decide

/-- An accepted currency code is read as it is. -/
theorem read_currency {s : String} (h : isCurrencyCode s = true) : (Text.strip s).toUpper = s := by
  simp only [isCurrencyCode, Bool.and_eq_true, List.all_eq_true] at h
  have hbounds : ∀ c ∈ s.toList, 65 ≤ c.toNat ∧ c.toNat ≤ 90 := by
    intro c hc
    have hupper : c.val ≥ 'A'.val ∧ c.val ≤ 'Z'.val := of_decide_eq_true (h.2 c hc)
    simp only [ge_iff_le, UInt32.le_iff_toNat_le] at hupper
    exact hupper
  have hspace : ∀ c ∈ s.toList, Text.isSpace c = false := by
    intro c hc
    have hc := hbounds c hc
    simp only [Text.isSpace, Bool.or_eq_false_iff, Bool.and_eq_false_iff, decide_eq_false_iff_not, beq_eq_false_iff_ne]
    omega
  have hupper : ∀ c ∈ s.toList, c.toUpper = c := by
    intro c hc
    have hc := hbounds c hc
    unfold Char.toUpper
    rw [dif_neg]
    rintro ⟨hlower, -⟩
    have hlower := UInt32.le_iff_toNat_le.1 hlower
    have h97 : ('a'.val).toNat = 97 := rfl
    have hval : c.val.toNat = c.toNat := rfl
    omega
  rw [Text.strip, Text.stripBy_eq_self hspace, String.ofList_toList, String.toUpper, ← String.toList_inj,
    String.toList_map]
  exact (List.map_congr_left hupper).trans (List.map_id _)

theorem sameOrderLine_iff {source : ExtractedPurchaseOrderLine} {line : PurchaseOrderLineForm}
    {confirmed : PurchaseOrderLineCreate} (hrepeat : RepeatsOrderLine source line)
    (hread : PurchaseOrderLineCreate.ofPayload (purchaseOrderLinePayload line) = some confirmed) :
    SameOrderLine source confirmed ↔ PlainOrderLine source := by
  have hreads := readsOrderLine hread
  have hnumberRead : confirmed.lineNumber = Text.strip (trim line.lineNumber) := hreads.lineNumber
  have hdescriptionRead : confirmed.description = Text.strip (trim line.description) := hreads.description
  have hnumber := required_text (fun s => Text.strip (trim s)) hrepeat.lineNumber hnumberRead strip_trim_empty
    confirmed.texts.1.1
  have hdescription := required_text (fun s => Text.strip (trim s)) hrepeat.description hdescriptionRead
    strip_trim_empty confirmed.texts.2.1
  have hquantity := required_decimal hrepeat.orderedQuantity hreads.orderedQuantity
  have hprice := required_decimal hrepeat.unitPrice hreads.unitPrice
  have hamount := compared_amount hrepeat.lineTotal hreads.lineTotal
  rw [PlainOrderLine, ← hnumber, ← hdescription]
  constructor
  · rintro ⟨hn, hd, -, -, -⟩
    exact ⟨hn, hd⟩
  · rintro ⟨hn, hd⟩
    refine ⟨hn, hd, ?_, ?_, fun _ => hamount⟩
    · rw [hquantity, Option.map_some]
    · rw [hprice, Option.map_some]

/-- What a repeated order is confirmed as counts as uncorrected exactly when no line was added and trimming leaves
its texts alone. -/
theorem uncorrected_order_iff (haccept : v.accepted = true) (hrepeat : RepeatsOrder extracted v)
    (hread : PurchaseOrderConfirmationValues.ofPayload (purchaseOrderPayload v) = some c) :
    poCorrectedFields extracted c = [] ↔ v.lines.length ≤ extracted.lineItems.length ∧ PlainOrder extracted := by
  have hreads := readsOrder hread
  have hcurrency : extracted.currency.value = some c.currency := by
    have hcode : isCurrencyCode v.currency = true := by
      simp only [PurchaseOrderForm.accepted, Bool.and_eq_true] at haccept
      exact haccept.1.1.1.1.1.1.2
    have hsame := hrepeat.currency
    rw [hreads.currency]
    cases hvalue : extracted.currency.value with
    | none =>
      rw [RepeatsText, hvalue, Option.getD_none] at hsame
      rw [← hsame] at hcode
      cases hcode
    | some s =>
      rw [RepeatsText, hvalue, Option.getD_some] at hsame
      rw [hsame]
      exact congrArg some (read_currency hcode).symm
  have hnumberRead : c.externalPoNumber = Text.strip (trim v.externalPoNumber) := hreads.poNumber
  have hvendorRead : c.vendorName = (orNull (trim v.vendorName)).map Text.strip := hreads.vendor
  have hbuyerRead : c.buyerName = (orNull (trim v.buyerName)).map id := hreads.buyer.trans (congrFun Option.map_id _).symm
  have hnumber := required_text (fun s => Text.strip (trim s)) hrepeat.poNumber hnumberRead strip_trim_empty c.texts.1.1
  have hvendor := optional_text Text.strip hrepeat.vendor hvendorRead (by decide)
  have hbuyer := optional_text id hrepeat.buyer hbuyerRead rfl
  have hdate := optional_date hrepeat.issueDate hreads.issueDate
  have hsubtotal := optional_decimal hrepeat.subtotal hreads.subtotal
  have htax := optional_decimal hrepeat.tax hreads.tax
  have htotal := optional_decimal hrepeat.total hreads.total
  have hpairs : List.Forall₂ (fun l line => PurchaseOrderLineCreate.ofPayload (purchaseOrderLinePayload l) = some line)
      v.lines c.lines := List.forall₂_map_left_iff.1 hreads.lines
  have hlines : List.Forall₂ SameOrderLine extracted.lineItems c.lines ↔
      v.lines.length ≤ extracted.lineItems.length ∧ ∀ l ∈ extracted.lineItems, PlainOrderLine l := by
    refine Lists.forall₂_iff_of_zip ?_ hpairs hrepeat.lines hrepeat.all
    intro source line confirmed hline hconfirmed
    exact sameOrderLine_iff hline hconfirmed
  rw [poCorrectedFields_eq_nil]
  constructor
  · rintro ⟨hsame, -⟩
    obtain ⟨hlength, hplain⟩ := hlines.1 hsame.lines
    exact ⟨hlength, hnumber.1 hsame.poNumber, hvendor.1 hsame.vendor, hbuyer.1 hsame.buyer, hplain⟩
  · rintro ⟨hlength, hplain⟩
    exact ⟨⟨hnumber.2 hplain.poNumber, hdate, hbuyer.2 hplain.buyer, hvendor.2 hplain.vendor, hcurrency,
      by rw [hsubtotal], by rw [htax], by rw [htotal], hlines.2 ⟨hlength, hplain.lines⟩⟩, hsubtotal, htax, htotal⟩

end

section

variable {extracted : ExtractedGoodsReceipt} {v : ReceiptForm} {c : ReceiptConfirmationValues}

theorem receiptLine_iff {source : ExtractedGoodsReceiptLine} {line : ReceiptLineForm}
    {confirmed : ReceiptConfirmationLine} (hrepeat : RepeatsReceiptLine source line)
    (hread : ReceiptConfirmationLine.ofPayload (receiptLinePayload line) = some confirmed) :
    SameReceiptLine source confirmed ∧ ReceiptLineSpelledAlike source confirmed ↔
      ∀ s ∈ source.description.value, trim s = s := by
  have hreads := readsReceiptLine hread
  have hdescriptionRead : confirmed.description = trim line.description := hreads.description
  have hdescription := required_text trim hrepeat.description hdescriptionRead trim_empty (by
    intro h0
    exact absurd (h0 ▸ confirmed.texts.2.1) (by decide))
  have hreceived := required_decimal hrepeat.received hreads.received
  have haccepted := required_decimal hrepeat.accepted hreads.accepted
  have hrejected := required_decimal hrepeat.rejected hreads.rejected
  rw [← hdescription]
  constructor
  · rintro ⟨hsame, -⟩
    exact hsame.description
  · intro hd
    exact ⟨⟨hd, by rw [hreceived]; rfl, by rw [haccepted]; rfl, by rw [hrejected]; rfl⟩, hreceived, haccepted, hrejected⟩

/-- The text of a repeated day is that of midnight exactly when the form says midnight. -/
theorem receivedAt_iff (haccept : isUtcDateTimeInput v.receivedAt = true)
    (hrepeat : RepeatsText (extracted.receivedDate.value.map Date.text) (String.ofList (v.receivedAt.toList.take 10)))
    (hread : SentDateTime.ofUtcText (v.receivedAt ++ ":00Z") = some c.receivedAt) :
    extracted.receivedDate.value.map receivedDateText = some c.receivedAt.isoText ↔
      v.receivedAt.toList.drop 10 = "T00:00".toList := by
  have hlength : v.receivedAt.toList.length = 16 := by
    simp only [isUtcDateTimeInput, Bool.and_eq_true, decide_eq_true_eq] at haccept
    exact haccept.1.1.1
  have hsplit := List.take_append_drop 10 v.receivedAt.toList
  cases hvalue : extracted.receivedDate.value with
  | none =>
    rw [RepeatsText, hvalue, Option.map_none, Option.getD_none] at hrepeat
    have htake := congrArg (fun s => s.toList.length) hrepeat
    simp [hlength] at htake
  | some d =>
    rw [RepeatsText, hvalue, Option.map_some, Option.getD_some, Date.text] at hrepeat
    have hday : dateChars d.ordinal = v.receivedAt.toList.take 10 := String.ofList_injective hrepeat
    have hmidnight : midnightUtc = "T00:00".toList ++ ":00Z".toList := rfl
    rw [Option.map_some, Option.some.injEq, (SentDateTime.ofUtcText_spec hread).1, receivedDateText, hday, hmidnight,
      ← String.toList_inj, String.toList_ofList, String.toList_append, ← List.append_assoc,
      List.append_cancel_right_eq]
    constructor
    · intro h
      exact List.append_cancel_left (hsplit.trans h.symm)
    · intro h
      rw [← h, hsplit]

/-- What a repeated receipt is confirmed as counts as uncorrected exactly when no line was added, trimming leaves its
texts alone and it was received at midnight. -/
theorem uncorrected_receipt_iff (haccept : v.accepted = true) (hrepeat : RepeatsReceipt extracted v)
    (hread : ReceiptConfirmationValues.ofPayload (receiptPayload v) = some c) :
    receiptCorrectedFields extracted c = [] ↔ v.lines.length ≤ extracted.lineItems.length ∧
      PlainReceipt extracted ∧ v.receivedAt.toList.drop 10 = "T00:00".toList := by
  have hreads := readsReceipt hread
  have hinput : isUtcDateTimeInput v.receivedAt = true := by
    simp only [ReceiptForm.accepted, Bool.and_eq_true] at haccept
    exact haccept.1.1.1.1.2
  have hat := (receivedAt_iff hinput hrepeat.receivedDate hreads.receivedAt).symm.trans receivedAt_eq_iff
  have hnumberRead : c.externalReceiptNumber = trim v.externalReceiptNumber := hreads.receiptNumber
  have hreferenceRead : c.referencedPoNumber = trim v.referencedPoNumber := hreads.referencedPoNumber
  have hsupplierRead : c.supplier = (orNull (trim v.supplier)).map id := hreads.supplier.trans (congrFun Option.map_id _).symm
  have hnumber := required_text trim hrepeat.receiptNumber hnumberRead trim_empty (by
    intro h0
    exact absurd (h0 ▸ c.texts.1.1) (by decide))
  have hreference := required_text trim hrepeat.referencedPoNumber hreferenceRead trim_empty (by
    intro h0
    exact absurd (h0 ▸ c.texts.2.1.1) (by decide))
  have hsupplier := optional_text id hrepeat.supplier hsupplierRead rfl
  have hpairs : List.Forall₂ (fun l line => ReceiptConfirmationLine.ofPayload (receiptLinePayload l) = some line)
      v.lines c.lines := List.forall₂_map_left_iff.1 hreads.lines
  have hlines : List.Forall₂ (fun s l => SameReceiptLine s l ∧ ReceiptLineSpelledAlike s l) extracted.lineItems c.lines ↔
      v.lines.length ≤ extracted.lineItems.length ∧
        ∀ l ∈ extracted.lineItems, ∀ s ∈ l.description.value, trim s = s := by
    refine Lists.forall₂_iff_of_zip ?_ hpairs hrepeat.lines hrepeat.all
    intro source line confirmed hline hconfirmed
    exact receiptLine_iff hline hconfirmed
  rw [receiptCorrectedFields_eq_nil]
  constructor
  · rintro ⟨hsame, hutc, hspelled⟩
    have hboth := hlines.1 (Lists.forall₂_and hsame.lines hspelled)
    exact ⟨hboth.1, ⟨hnumber.1 hsame.receiptNumber, hreference.1 hsame.referencedPoNumber, hsupplier.1 hsame.supplier,
      hboth.2⟩, hat.2 ⟨hsame.receivedAt, hutc⟩⟩
  · rintro ⟨hlength, hplain, hmidnight⟩
    have hboth := hlines.2 ⟨hlength, hplain.lines⟩
    obtain ⟨htime, hutc⟩ := hat.1 hmidnight
    exact ⟨⟨hnumber.2 hplain.receiptNumber, hreference.2 hplain.referencedPoNumber, htime, hsupplier.2 hplain.supplier,
      hboth.imp fun _ _ h => h.1⟩, hutc, hboth.imp fun _ _ h => h.2⟩

end

/-- A purchase-order form that shows no change makes a request in which the service sees none. -/
def OrderFormAgrees (extracted : ExtractedPurchaseOrder) (v : PurchaseOrderForm) : Prop :=
  v.accepted = true → (purchaseOrderChanges extracted v (ownIndices v.lines.length)).materiallyChanged = false →
    ∀ c, PurchaseOrderConfirmationValues.ofPayload (purchaseOrderPayload v) = some c → poCorrectedFields extracted c = []

def ReceiptFormAgrees (extracted : ExtractedGoodsReceipt) (v : ReceiptForm) : Prop :=
  v.accepted = true → (receiptChanges extracted v (ownIndices v.lines.length)).materiallyChanged = false →
    ∀ c, ReceiptConfirmationValues.ofPayload (receiptPayload v) = some c → receiptCorrectedFields extracted c = []

/-- Form and service agree exactly where a form that repeats the extraction, and makes a valid request, adds no
line, has texts that trimming leaves alone and, for a receipt, says midnight. -/
theorem form_agrees_iff (order : ExtractedPurchaseOrder) (orderForm : PurchaseOrderForm)
    (receipt : ExtractedGoodsReceipt) (receiptForm : ReceiptForm) :
    (OrderFormAgrees order orderForm ↔
      (orderForm.accepted = true → RepeatsOrder order orderForm →
        (PurchaseOrderConfirmationValues.ofPayload (purchaseOrderPayload orderForm)).isSome = true →
          orderForm.lines.length ≤ order.lineItems.length ∧ PlainOrder order)) ∧
    (ReceiptFormAgrees receipt receiptForm ↔
      (receiptForm.accepted = true → RepeatsReceipt receipt receiptForm →
        (ReceiptConfirmationValues.ofPayload (receiptPayload receiptForm)).isSome = true →
          receiptForm.lines.length ≤ receipt.lineItems.length ∧ PlainReceipt receipt ∧
            receiptForm.receivedAt.toList.drop 10 = "T00:00".toList)) := by
  constructor
  · rw [OrderFormAgrees, purchaseOrderChanges_unchanged]
    refine forall_congr' fun haccept => forall_congr' fun hrepeat => ⟨fun h hsome => ?_, fun h c hread => ?_⟩
    · obtain ⟨c, hread⟩ := Option.isSome_iff_exists.1 hsome
      exact (uncorrected_order_iff haccept hrepeat hread).1 (h c hread)
    · exact (uncorrected_order_iff haccept hrepeat hread).2 (h (by rw [hread]; rfl))
  · rw [ReceiptFormAgrees, receiptChanges_unchanged]
    refine forall_congr' fun haccept => forall_congr' fun hrepeat => ⟨fun h hsome => ?_, fun h c hread => ?_⟩
    · obtain ⟨c, hread⟩ := Option.isSome_iff_exists.1 hsome
      exact (uncorrected_receipt_iff haccept hrepeat hread).1 (h c hread)
    · exact (uncorrected_receipt_iff haccept hrepeat hread).2 (h (by rw [hread]; rfl))

/-- The tap was received at half past ten. -/
def tapReceiptForm : ReceiptForm where
  externalReceiptNumber := "GR-1"
  referencedPoNumber := "PO-1"
  receivedAt := "2021-07-29T10:30"
  supplier := ""
  lines := [⟨"1", "Tap", "2", "2", "0"⟩]
  correctionReason := ""

/-- The form shows no change, and the service asks for a reason. -/
theorem tapReceiptForm_corrected : tapReceiptForm.accepted = true ∧
    (receiptChanges tapReceiptRead tapReceiptForm (ownIndices tapReceiptForm.lines.length)).materiallyChanged = false ∧
    (ReceiptConfirmationValues.ofPayload (receiptPayload tapReceiptForm)).map
      (receiptCorrectedFields tapReceiptRead) = some ["received_at"] ∧
    ¬ ReceiptFormAgrees tapReceiptRead tapReceiptForm := by
  have haccept : tapReceiptForm.accepted = true := by decide +kernel
  have hunchanged : (receiptChanges tapReceiptRead tapReceiptForm
      (ownIndices tapReceiptForm.lines.length)).materiallyChanged = false := by decide +kernel
  have hcorrected : (ReceiptConfirmationValues.ofPayload (receiptPayload tapReceiptForm)).map
      (receiptCorrectedFields tapReceiptRead) = some ["received_at"] := by decide +kernel
  refine ⟨haccept, hunchanged, hcorrected, fun h => ?_⟩
  obtain ⟨c, hread, hfields⟩ := Option.map_eq_some_iff.1 hcorrected
  rw [h haccept hunchanged c hread] at hfields
  cases hfields

end InvoiceOps
