import InvoiceOps.Matching.Decision
import InvoiceOps.Schemas.Cases

/-! Which confirmed values count as corrected (`_po_corrected_fields` and `_receipt_corrected_fields` in
`cases/service.py`). Header values are compared as the texts they have in JSON, the decimals of an order line as
numbers, and a receipt line as a whole, again by texts. So a number that is only written differently is no
correction in an order line and is one elsewhere. -/

namespace InvoiceOps

open Calendar

/-- A compared field: its name, the extracted text and the confirmed one; `none` is `null`. -/
abbrev FieldPair := String × Option String × Option String

def changedNames (pairs : List FieldPair) : List String := (pairs.filter fun p => p.2.1 ≠ p.2.2).map (·.1)

def sortNames (names : List String) : List String := names.insertionSort (· ≤ ·)

def poPairs (extracted : ExtractedPurchaseOrder) (confirmed : PurchaseOrderConfirmationValues) : List FieldPair :=
  [("external_po_number", extracted.poNumber.value, some confirmed.externalPoNumber),
    ("issue_date", extracted.issueDate.value.map Date.text, confirmed.issueDate.map Date.text),
    ("buyer_name", extracted.buyer.value, confirmed.buyerName),
    ("vendor_name", extracted.vendor.value, confirmed.vendorName),
    ("currency", extracted.currency.value, some confirmed.currency),
    ("subtotal", extracted.subtotal.value.map Decimal.str, confirmed.subtotal.map Decimal.str),
    ("tax", extracted.tax.value.map Decimal.str, confirmed.tax.map Decimal.str),
    ("total", extracted.total.value.map Decimal.str, confirmed.total.map Decimal.str)]

/-- `different`: the confirmed text is read as a number again. -/
def different : Option Decimal → Option String → Bool
  | none, none => false
  | some source, some candidate =>
    match Decimal.ofText candidate with
    | some d => decide ¬ source.numEq d
    | none => true
  | _, _ => true

/-- An amount the request does not have is not compared. -/
def amountDifferent (source : ExtractedPurchaseOrderLine) (line : PurchaseOrderLineCreate) : Bool :=
  line.lineTotalSet && different source.lineTotal.value (line.lineTotal.map Decimal.str)

def poLineChanged (source : ExtractedPurchaseOrderLine) (line : PurchaseOrderLineCreate) : Bool :=
  decide (source.lineNumber.value ≠ some line.lineNumber ∨ source.description.value ≠ some line.description) ||
    different source.orderedQuantity.value (some line.orderedQuantity.str) ||
    different source.unitPrice.value (some line.unitPrice.str) || amountDifferent source line

def amountNames (rows : List (ExtractedPurchaseOrderLine × PurchaseOrderLineCreate)) : List String :=
  (rows.zipIdx.filter fun r => amountDifferent r.1.1 r.1.2).map fun r => "lines." ++ toString r.2 ++ ".line_total"

def poCorrectedFields (extracted : ExtractedPurchaseOrder) (confirmed : PurchaseOrderConfirmationValues) :
    List String :=
  let rows := extracted.lineItems.zip confirmed.lines
  let linesChanged := decide (confirmed.lines.length ≠ extracted.lineItems.length) ||
    rows.any fun r => poLineChanged r.1 r.2
  sortNames (changedNames (poPairs extracted confirmed) ++ amountNames rows ++
    if linesChanged then ["lines"] else [])

/-- The text the day of a receipt is compared as. -/
def receivedDateText (d : Date) : String := String.ofList (dateChars d.ordinal ++ midnightUtc)

def receiptPairs (extracted : ExtractedGoodsReceipt) (confirmed : ReceiptConfirmationValues) : List FieldPair :=
  [("external_receipt_number", extracted.receiptNumber.value, some confirmed.externalReceiptNumber),
    ("referenced_po_number", extracted.referencedPoNumber.value, some confirmed.referencedPoNumber),
    ("received_at", extracted.receivedDate.value.map receivedDateText, some confirmed.receivedAt.isoText),
    ("supplier", extracted.supplier.value, confirmed.supplier)]

def receiptLineChanged (source : ExtractedGoodsReceiptLine) (line : ReceiptConfirmationLine) : Bool :=
  decide (source.description.value ≠ some line.description ∨
    source.receivedQuantity.value.map Decimal.str ≠ some line.receivedQuantity.str ∨
    source.acceptedQuantity.value.map Decimal.str ≠ some line.acceptedQuantity.str ∨
    source.rejectedQuantity.value.map Decimal.str ≠ some line.rejectedQuantity.str)

def receiptCorrectedFields (extracted : ExtractedGoodsReceipt) (confirmed : ReceiptConfirmationValues) :
    List String :=
  let linesChanged := (confirmed.lines.zip extracted.lineItems).any (fun r => receiptLineChanged r.2 r.1) ||
    decide (confirmed.lines.length ≠ extracted.lineItems.length)
  sortNames (changedNames (receiptPairs extracted confirmed) ++ if linesChanged then ["lines"] else [])

/-- The line has the values that were extracted; numbers are equal whatever their digits. -/
structure SameOrderLine (source : ExtractedPurchaseOrderLine) (line : PurchaseOrderLineCreate) : Prop where
  lineNumber : source.lineNumber.value = some line.lineNumber
  description : source.description.value = some line.description
  orderedQuantity : source.orderedQuantity.value.map Decimal.toRat = some line.orderedQuantity.toRat
  unitPrice : source.unitPrice.value.map Decimal.toRat = some line.unitPrice.toRat
  lineTotal : line.lineTotalSet = true → source.lineTotal.value.map Decimal.toRat = line.lineTotal.map Decimal.toRat

structure SameOrder (extracted : ExtractedPurchaseOrder) (confirmed : PurchaseOrderConfirmationValues) : Prop where
  poNumber : extracted.poNumber.value = some confirmed.externalPoNumber
  issueDate : extracted.issueDate.value = confirmed.issueDate
  buyer : extracted.buyer.value = confirmed.buyerName
  vendor : extracted.vendor.value = confirmed.vendorName
  currency : extracted.currency.value = some confirmed.currency
  subtotal : extracted.subtotal.value.map Decimal.toRat = confirmed.subtotal.map Decimal.toRat
  tax : extracted.tax.value.map Decimal.toRat = confirmed.tax.map Decimal.toRat
  total : extracted.total.value.map Decimal.toRat = confirmed.total.map Decimal.toRat
  lines : List.Forall₂ SameOrderLine extracted.lineItems confirmed.lines

/-- The decimals of the header have the digits and the exponents that were extracted. -/
structure OrderSpelledAlike (extracted : ExtractedPurchaseOrder) (confirmed : PurchaseOrderConfirmationValues) :
    Prop where
  subtotal : extracted.subtotal.value = confirmed.subtotal
  tax : extracted.tax.value = confirmed.tax
  total : extracted.total.value = confirmed.total

structure SameReceiptLine (source : ExtractedGoodsReceiptLine) (line : ReceiptConfirmationLine) : Prop where
  description : source.description.value = some line.description
  received : source.receivedQuantity.value.map Decimal.toRat = some line.receivedQuantity.toRat
  accepted : source.acceptedQuantity.value.map Decimal.toRat = some line.acceptedQuantity.toRat
  rejected : source.rejectedQuantity.value.map Decimal.toRat = some line.rejectedQuantity.toRat

/-- The time of receipt is the instant at which the extracted day begins; a timestamp without a zone is none. -/
structure SameReceipt (extracted : ExtractedGoodsReceipt) (confirmed : ReceiptConfirmationValues) : Prop where
  receiptNumber : extracted.receiptNumber.value = some confirmed.externalReceiptNumber
  referencedPoNumber : extracted.referencedPoNumber.value = some confirmed.referencedPoNumber
  receivedAt : ∃ d, extracted.receivedDate.value = some d ∧ confirmed.receivedAt.offset.isSome = true ∧
    confirmed.receivedAt.instant = d.midnight
  supplier : extracted.supplier.value = confirmed.supplier
  lines : List.Forall₂ SameReceiptLine extracted.lineItems confirmed.lines

def ReceiptLineSpelledAlike (source : ExtractedGoodsReceiptLine) (line : ReceiptConfirmationLine) : Prop :=
  source.receivedQuantity.value = some line.receivedQuantity ∧
    source.acceptedQuantity.value = some line.acceptedQuantity ∧
    source.rejectedQuantity.value = some line.rejectedQuantity

/-- The time of receipt is given in UTC, and the quantities have the digits and exponents extracted. -/
structure ReceiptSpelledAlike (extracted : ExtractedGoodsReceipt) (confirmed : ReceiptConfirmationValues) : Prop where
  receivedAt : confirmed.receivedAt.offset = some 0
  lines : List.Forall₂ ReceiptLineSpelledAlike extracted.lineItems confirmed.lines

theorem sortNames_eq_nil {names : List String} : sortNames names = [] ↔ names = [] := by
  have hperm : (sortNames names).Perm names := List.perm_insertionSort _ _
  exact ⟨fun h => (h ▸ hperm).symm.eq_nil, fun h => by rw [h]; rfl⟩

theorem changedNames_eq_nil {pairs : List FieldPair} : changedNames pairs = [] ↔ ∀ p ∈ pairs, p.2.1 = p.2.2 := by
  simp [changedNames, List.filter_eq_nil_iff]

theorem map_str_eq_iff {a b : Option Decimal} : a.map Decimal.str = b.map Decimal.str ↔ a = b :=
  (Option.map_injective fun _ _ h => Decimal.str_inj h).eq_iff

theorem map_text_eq_iff {a b : Option Date} : a.map Date.text = b.map Date.text ↔ a = b :=
  (Option.map_injective fun _ _ h => Date.text_inj h).eq_iff

theorem different_eq_false {source line : Option Decimal} :
    different source (line.map Decimal.str) = false ↔ source.map Decimal.toRat = line.map Decimal.toRat := by
  cases source with
  | none => cases line <;> simp [different]
  | some d =>
    cases line with
    | none => simp [different]
    | some e => simp [different, Decimal.ofText_str, Decimal.numEq_iff]

theorem poLineChanged_eq_false {source : ExtractedPurchaseOrderLine} {line : PurchaseOrderLineCreate} :
    poLineChanged source line = false ↔ SameOrderLine source line := by
  have hquantity := @different_eq_false source.orderedQuantity.value (some line.orderedQuantity)
  have hprice := @different_eq_false source.unitPrice.value (some line.unitPrice)
  have hamount : amountDifferent source line = false ↔
      (line.lineTotalSet = true → source.lineTotal.value.map Decimal.toRat = line.lineTotal.map Decimal.toRat) := by
    rw [amountDifferent, ← different_eq_false]
    cases line.lineTotalSet <;> simp
  rw [Option.map_some, Option.map_some] at hquantity hprice
  simp only [poLineChanged, Bool.or_eq_false_iff, decide_eq_false_iff_not, not_or, not_not, hquantity, hprice, hamount]
  constructor
  · rintro ⟨⟨⟨⟨hn, hd⟩, hq⟩, hp⟩, ht⟩
    exact ⟨hn, hd, hq, hp, ht⟩
  · rintro ⟨hn, hd, hq, hp, ht⟩
    exact ⟨⟨⟨⟨hn, hd⟩, hq⟩, hp⟩, ht⟩

theorem receiptLineChanged_eq_false {source : ExtractedGoodsReceiptLine} {line : ReceiptConfirmationLine} :
    receiptLineChanged source line = false ↔ SameReceiptLine source line ∧ ReceiptLineSpelledAlike source line := by
  have hstr : ∀ {a : Option Decimal} {d : Decimal}, a.map Decimal.str = some d.str ↔ a = some d := fun {a d} =>
    @map_str_eq_iff a (some d)
  simp only [receiptLineChanged, decide_eq_false_iff_not, not_or, not_not, hstr]
  constructor
  · rintro ⟨hd, hr, ha, hj⟩
    exact ⟨⟨hd, by rw [hr]; rfl, by rw [ha]; rfl, by rw [hj]; rfl⟩, hr, ha, hj⟩
  · rintro ⟨hsame, hr, ha, hj⟩
    exact ⟨hsame.description, hr, ha, hj⟩

section

variable {extracted : ExtractedPurchaseOrder} {confirmed : PurchaseOrderConfirmationValues}

theorem amountNames_eq_nil {rows : List (ExtractedPurchaseOrderLine × PurchaseOrderLineCreate)}
    (h : ∀ r ∈ rows, SameOrderLine r.1 r.2) : amountNames rows = [] := by
  rw [amountNames, List.map_eq_nil_iff, List.filter_eq_nil_iff]
  intro r hr
  have hsame := h r.1 (List.fst_mem_of_mem_zipIdx hr)
  have hline := poLineChanged_eq_false.2 hsame
  rw [poLineChanged, Bool.or_eq_false_iff] at hline
  simp [hline.2]

/-- No field of an order is corrected exactly when every value is the one extracted and the decimals of the
header are also written the same. -/
theorem poCorrectedFields_eq_nil : poCorrectedFields extracted confirmed = [] ↔
    SameOrder extracted confirmed ∧ OrderSpelledAlike extracted confirmed := by
  have hlines : (decide (confirmed.lines.length ≠ extracted.lineItems.length) ||
      (extracted.lineItems.zip confirmed.lines).any fun r => poLineChanged r.1 r.2) = false ↔
      List.Forall₂ SameOrderLine extracted.lineItems confirmed.lines := by
    rw [List.forall₂_iff_zip, Bool.or_eq_false_iff, decide_eq_false_iff_not, not_not, List.any_eq_false, eq_comm]
    refine and_congr_right fun _ => ⟨fun h a b hab => ?_, fun h r hr => ?_⟩
    · exact poLineChanged_eq_false.1 (by simpa using h (a, b) hab)
    · simpa using poLineChanged_eq_false.2 (h hr)
  simp only [poCorrectedFields, sortNames_eq_nil, List.append_eq_nil_iff, changedNames_eq_nil, poPairs,
    List.forall_mem_cons, List.not_mem_nil, false_implies, implies_true, and_true, map_str_eq_iff, map_text_eq_iff]
  constructor
  · rintro ⟨⟨⟨hn, hd, hb, hv, hc, hs, ht, htotal⟩, -⟩, hchanged⟩
    have hrows := hlines.1 (by
      by_contra hne
      rw [Bool.not_eq_false] at hne
      rw [if_pos hne] at hchanged
      exact absurd hchanged (List.cons_ne_nil _ _))
    exact ⟨⟨hn, hd, hb, hv, hc, by rw [hs], by rw [ht], by rw [htotal], hrows⟩, hs, ht, htotal⟩
  · rintro ⟨hsame, hs, ht, htotal⟩
    refine ⟨⟨⟨hsame.poNumber, hsame.issueDate, hsame.buyer, hsame.vendor, hsame.currency, hs, ht, htotal⟩,
      amountNames_eq_nil fun r hr => (List.forall₂_iff_zip.1 hsame.lines).2 hr⟩, ?_⟩
    rw [if_neg (by rw [hlines.2 hsame.lines]; exact Bool.false_ne_true)]

end

section

variable {extracted : ExtractedGoodsReceipt} {confirmed : ReceiptConfirmationValues}

/-- The texts of the two times agree exactly when the confirmed one is midnight of the extracted day, in UTC. -/
theorem receivedAt_eq_iff : extracted.receivedDate.value.map receivedDateText = some confirmed.receivedAt.isoText ↔
    (∃ d, extracted.receivedDate.value = some d ∧ confirmed.receivedAt.offset.isSome = true ∧
      confirmed.receivedAt.instant = d.midnight) ∧ confirmed.receivedAt.offset = some 0 := by
  rw [Option.map_eq_some_iff]
  constructor
  · rintro ⟨d, hd, htext⟩
    obtain ⟨hoffset, hwall⟩ := SentDateTime.isoText_midnight.1 htext.symm
    have hinstant : confirmed.receivedAt.instant = d.midnight := by simp [SentDateTime.instant, hoffset, hwall]
    exact ⟨⟨d, hd, by rw [hoffset]; rfl, hinstant⟩, hoffset⟩
  · rintro ⟨⟨d, hd, -, hinstant⟩, hoffset⟩
    have hwall : confirmed.receivedAt.wall = d.midnight := by
      simpa [SentDateTime.instant, hoffset] using hinstant
    exact ⟨d, hd, (SentDateTime.isoText_midnight.2 ⟨hoffset, hwall⟩).symm⟩

/-- No field of a receipt is corrected exactly when every value is the one extracted, the quantities are written
the same and the time is given in UTC. -/
theorem receiptCorrectedFields_eq_nil : receiptCorrectedFields extracted confirmed = [] ↔
    SameReceipt extracted confirmed ∧ ReceiptSpelledAlike extracted confirmed := by
  have hlines : ((confirmed.lines.zip extracted.lineItems).any (fun r => receiptLineChanged r.2 r.1) ||
      decide (confirmed.lines.length ≠ extracted.lineItems.length)) = false ↔
      List.Forall₂ (fun l s => SameReceiptLine s l ∧ ReceiptLineSpelledAlike s l)
        confirmed.lines extracted.lineItems := by
    rw [List.forall₂_iff_zip, Bool.or_eq_false_iff, decide_eq_false_iff_not, not_not, List.any_eq_false, and_comm]
    refine and_congr_right fun _ => ⟨fun h a b hab => ?_, fun h r hr => ?_⟩
    · exact receiptLineChanged_eq_false.1 (by simpa using h (a, b) hab)
    · simpa using receiptLineChanged_eq_false.2 (h hr)
  simp only [receiptCorrectedFields, sortNames_eq_nil, List.append_eq_nil_iff, changedNames_eq_nil, receiptPairs,
    List.forall_mem_cons, List.not_mem_nil, false_implies, implies_true, and_true, receivedAt_eq_iff]
  constructor
  · rintro ⟨⟨hn, hr, ⟨hat, hutc⟩, hs⟩, hchanged⟩
    have hrows := hlines.1 (by
      by_contra hne
      rw [Bool.not_eq_false] at hne
      rw [if_pos hne] at hchanged
      exact absurd hchanged (List.cons_ne_nil _ _))
    exact ⟨⟨hn, hr, hat, hs, (hrows.imp fun _ _ h => h.1).flip⟩, hutc, (hrows.imp fun _ _ h => h.2).flip⟩
  · rintro ⟨hsame, hutc, hspelled⟩
    refine ⟨⟨hsame.receiptNumber, hsame.referencedPoNumber, ⟨hsame.receivedAt, hutc⟩, hsame.supplier⟩, ?_⟩
    have hboth := Lists.forall₂_and hsame.lines hspelled
    rw [if_neg (by rw [hlines.2 hboth.flip]; exact Bool.false_ne_true)]

end

/-- In an order as in a receipt, what counts as corrected is what differs in value exactly when no value is
merely written differently: the decimals of the header, the quantities of a receipt line and the time of receipt
are compared by their texts. -/
theorem corrected_iff (order : ExtractedPurchaseOrder) (values : PurchaseOrderConfirmationValues)
    (receipt : ExtractedGoodsReceipt) (receiptValues : ReceiptConfirmationValues) :
    ((poCorrectedFields order values = [] ↔ SameOrder order values) ↔
      (SameOrder order values → OrderSpelledAlike order values)) ∧
    ((receiptCorrectedFields receipt receiptValues = [] ↔ SameReceipt receipt receiptValues) ↔
      (SameReceipt receipt receiptValues → ReceiptSpelledAlike receipt receiptValues)) := by
  rw [poCorrectedFields_eq_nil, receiptCorrectedFields_eq_nil]
  exact ⟨and_iff_left_iff_imp, and_iff_left_iff_imp⟩

def noField {α : Type} : ExtractedField α where
  value := none
  status := .missing
  evidence := []
  ruleId := none
  extracted_contract := ExtractedField.missing_extracted α
  missing_contract := ExtractedField.missing_missing α

def tapOrderRead : ExtractedPurchaseOrder where
  poNumber := printed "PO-1" "PO-1"
  issueDate := noField
  vendor := printed "Acme" "Acme"
  buyer := noField
  currency := printed "EUR" "EUR"
  subtotal := printed ⟨false, 2000, -2⟩ "20.00"
  tax := noField
  total := noField
  lineItems :=
    [{ lineNumber := printed "1" "1"
       description := printed "Tap" "Tap"
       orderedQuantity := printed ⟨false, 2, 0⟩ "2"
       unitPrice := printed ⟨false, 1000, -2⟩ "10.00"
       lineTotal := printed ⟨false, 2000, -2⟩ "20.00" }]

/-- The same order, confirmed with the subtotal `20`. -/
def tapOrderValues : PurchaseOrderConfirmationValues where
  externalPoNumber := "PO-1"
  vendorName := some "Acme"
  currency := "EUR"
  lines :=
    [{ lineNumber := "1"
       description := "Tap"
       orderedQuantity := ⟨false, 2, 0⟩
       unitPrice := ⟨false, 10, 0⟩
       lineTotal := none
       lineTotalSet := false
       texts := by decide
       amounts := by decide
       unset := by decide }]
  issueDate := none
  buyerName := none
  subtotal := some ⟨false, 20, 0⟩
  tax := none
  total := none
  texts := by decide
  currency_code := by decide
  buyer_length := by decide
  amounts := by decide
  lines_ne := by decide
  line_numbers := by decide
  consistent := by decide

/-- The two taps are received on one day. -/
def tapReceiptRead : ExtractedGoodsReceipt where
  receiptNumber := printed "GR-1" "GR-1"
  referencedPoNumber := printed "PO-1" "PO-1"
  receivedDate := filterInvoice.invoiceDate
  supplier := noField
  lineItems :=
    [{ description := printed "Tap" "Tap"
       receivedQuantity := printed ⟨false, 2, 0⟩ "2"
       acceptedQuantity := printed ⟨false, 2, 0⟩ "2"
       rejectedQuantity := printed ⟨false, 0, 0⟩ "0" }]

/-- The same receipt, with the time at which the day begins given at a distance of five and a half hours. -/
def tapReceiptValues : ReceiptConfirmationValues where
  externalReceiptNumber := "GR-1"
  referencedPoNumber := "PO-1"
  supplier := none
  receivedAt := ⟨737999 * dayMicros + 19800000000, some 19800000000, by decide, by decide⟩
  lines :=
    [{ purchaseOrderLineNumber := "1"
       description := "Tap"
       receivedQuantity := ⟨false, 20, -1⟩
       acceptedQuantity := ⟨false, 20, -1⟩
       rejectedQuantity := ⟨false, 0, 0⟩
       texts := by decide
       amounts := by decide
       reconcile := by decide }]
  texts := by decide
  lines_ne := by decide
  line_numbers := by decide

/-- Neither document was changed in value, and both count as corrected. -/
theorem corrected_by_spelling :
    (SameOrder tapOrderRead tapOrderValues ∧ poCorrectedFields tapOrderRead tapOrderValues = ["subtotal"]) ∧
    SameReceipt tapReceiptRead tapReceiptValues ∧
      receiptCorrectedFields tapReceiptRead tapReceiptValues = ["lines", "received_at"] := by
  refine ⟨⟨?_, by decide +kernel⟩, ?_, by decide +kernel⟩
  · exact ⟨rfl, rfl, rfl, rfl, rfl, by decide +kernel, rfl, rfl,
      .cons ⟨rfl, rfl, by decide +kernel, by decide +kernel, nofun⟩ .nil⟩
  · exact ⟨rfl, rfl, ⟨_, rfl, rfl, by decide +kernel⟩, rfl,
      .cons ⟨rfl, by decide +kernel, by decide +kernel, by decide +kernel⟩ .nil⟩

end InvoiceOps
