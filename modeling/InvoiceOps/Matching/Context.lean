import InvoiceOps.Lib.DecimalContext
import InvoiceOps.Lib.Json
import InvoiceOps.Lib.Lists
import InvoiceOps.Models

/-! The receipt context of a three-way match (`matching/context.py`, `schemas/three_way.py`): per
purchase-order line the active and reversed receipts, the allocations of other documents and the
quantity that is left, all as texts, and the two fingerprints of the context. `build_line` says which
numbers the texts stand for. -/

namespace InvoiceOps

open Calendar
open DecimalContext (rounded roundedSum Kept Scaled)

structure ReceiptQuantityRead where
  receiptId : Uuid
  acceptedQuantity : String
  receivedAt : DateTime
deriving DecidableEq, Repr

structure PriorAllocationRead where
  allocationId : Uuid
  matchRunId : Uuid
  documentId : Uuid
  extractionRunId : Uuid
  purchaseOrderId : Uuid
  purchaseOrderLineId : Uuid
  invoiceLineIndex : ℕ
  allocatedQuantity : String
deriving DecidableEq, Repr

structure ReceiptLineContextRead where
  purchaseOrderLineId : Uuid
  orderedQuantity : String
  activeReceipts : List ReceiptQuantityRead
  reversedReceipts : List ReceiptQuantityRead
  reversalIds : List Uuid
  priorAllocations : List PriorAllocationRead
  currentInvoiceAllocations : List PriorAllocationRead
  effectiveReceivedQuantity : String
  previouslyAllocatedQuantity : String
  availableQuantity : String
deriving DecidableEq, Repr

structure ThreeWayContextSnapshot where
  purchaseOrderId : Uuid
  policyVersion : String
  lines : List ReceiptLineContextRead
deriving DecidableEq, Repr

/-- What the source takes from elsewhere to fingerprint a context: the digest, the text of a
timestamp and the dump of a policy. -/
structure Dumps where
  sha256 : ByteArray → String
  dateTime : DateTime → String
  policy : ThreeWayMatchingPolicy → Json

section

variable (receipts : List GoodsReceipt) (allocations : List ThreeWayAllocation)

def receiptRead (r : GoodsReceipt) (l : GoodsReceiptLine) : ReceiptQuantityRead :=
  ⟨r.id, l.acceptedQuantity.text, r.receivedAt⟩

/-- The receipts with a line for `poLineId` that satisfy `p`, in the order they are read. -/
def receiptsOn (p : GoodsReceipt → Bool) (poLineId : Uuid) : List ReceiptQuantityRead :=
  (receipts.filter p).filterMap fun r =>
    (r.lines.find? (·.purchaseOrderLineId = poLineId)).map (receiptRead r)

def activeOn (poLineId : Uuid) : List ReceiptQuantityRead :=
  receiptsOn receipts (·.reversal.isNone) poLineId

def reversedOn (poLineId : Uuid) : List ReceiptQuantityRead :=
  receiptsOn receipts (·.reversal.isSome) poLineId

def reversalsOn (poLineId : Uuid) : List Uuid :=
  receipts.filterMap fun r =>
    match r.lines.find? (·.purchaseOrderLineId = poLineId), r.reversal with
    | some _, some reversal => some reversal.id
    | _, _ => none

def allocationRead (a : ThreeWayAllocation) : PriorAllocationRead where
  allocationId := a.id
  matchRunId := a.matchRunId
  documentId := a.documentId
  extractionRunId := a.extractionRunId
  purchaseOrderId := a.purchaseOrderId
  purchaseOrderLineId := a.purchaseOrderLineId
  invoiceLineIndex := a.invoiceLineIndex
  allocatedQuantity := a.allocatedQuantity.text

def sortById {α : Type} (id : α → Uuid) (xs : List α) : List α :=
  xs.insertionSort fun x y => (id x).str ≤ (id y).str

/-- The sum of the accepted quantities, read back from their texts. -/
def receivedSum [DecimalContext] (active : List ReceiptQuantityRead) : Decimal :=
  DecimalContext.sum (active.map fun a => (Decimal.ofText a.acceptedQuantity).getD Decimal.zero)

def allocatedSum [DecimalContext] (allocations : List ThreeWayAllocation) (poLineId : Uuid) : Decimal :=
  DecimalContext.sum ((allocations.filter (·.purchaseOrderLineId = poLineId)).map (·.allocatedQuantity))

def lineContext [DecimalContext] (documentId : Uuid) (line : PurchaseOrderLine) : ReceiptLineContextRead :=
  let sorted := sortById (·.id) allocations
  let received := receivedSum (activeOn receipts line.id)
  let prior := allocatedSum (priorAllocations sorted documentId) line.id
  { purchaseOrderLineId := line.id
    orderedQuantity := line.orderedQuantity.text
    activeReceipts := sortById (·.receiptId) (activeOn receipts line.id)
    reversedReceipts := sortById (·.receiptId) (reversedOn receipts line.id)
    reversalIds := sortById (fun u => u) (reversalsOn receipts line.id)
    priorAllocations := ((priorAllocations sorted documentId).filter
      (·.purchaseOrderLineId = line.id)).map allocationRead
    currentInvoiceAllocations := ((currentAllocations sorted documentId).filter
      (·.purchaseOrderLineId = line.id)).map allocationRead
    effectiveReceivedQuantity := received.text
    previouslyAllocatedQuantity := prior.text
    availableQuantity := (DecimalContext.subtract received prior).text }

/-- The snapshot of `ThreeWayContextBuilder.build`, from the rows its two queries return. -/
def snapshotOf [DecimalContext] (po : PurchaseOrder) (policy : ThreeWayMatchingPolicy) (documentId : Uuid) :
    ThreeWayContextSnapshot where
  purchaseOrderId := po.id
  policyVersion := policy.version
  lines := po.lines.map (lineContext receipts allocations documentId)

end

section

variable (X : Dumps)

def receiptJson (r : ReceiptQuantityRead) : Json :=
  .obj [("receipt_id", .str r.receiptId.str), ("accepted_quantity", .str r.acceptedQuantity),
    ("received_at", .str (X.dateTime r.receivedAt))]

def allocationJson (a : PriorAllocationRead) : Json :=
  .obj [("allocation_id", .str a.allocationId.str), ("match_run_id", .str a.matchRunId.str),
    ("document_id", .str a.documentId.str), ("extraction_run_id", .str a.extractionRunId.str),
    ("purchase_order_id", .str a.purchaseOrderId.str),
    ("purchase_order_line_id", .str a.purchaseOrderLineId.str),
    ("invoice_line_index", .int a.invoiceLineIndex), ("allocated_quantity", .str a.allocatedQuantity)]

/-- What the replay fingerprint keeps of an allocation. -/
def replayAllocationJson (a : PriorAllocationRead) : Json :=
  .obj [("allocation_id", .str a.allocationId.str), ("match_run_id", .str a.matchRunId.str),
    ("allocated_quantity", .str a.allocatedQuantity)]

/-- The fields of a line both fingerprints share; `prior` dumps one prior allocation. -/
def lineFields (prior : PriorAllocationRead → Json) (c : ReceiptLineContextRead) : List (String × Json) :=
  [("purchase_order_line_id", .str c.purchaseOrderLineId.str),
    ("ordered_quantity", .str c.orderedQuantity),
    ("active_receipts", .arr (c.activeReceipts.map (receiptJson X))),
    ("reversed_receipts", .arr (c.reversedReceipts.map (receiptJson X))),
    ("reversal_ids", .arr (c.reversalIds.map fun u => .str u.str)),
    ("prior_allocations", .arr (c.priorAllocations.map prior)),
    ("effective_received_quantity", .str c.effectiveReceivedQuantity),
    ("previously_allocated_quantity", .str c.previouslyAllocatedQuantity),
    ("available_quantity", .str c.availableQuantity)]

def lineJson (c : ReceiptLineContextRead) : Json :=
  .obj (lineFields X allocationJson c ++
    [("current_invoice_allocations", .arr (c.currentInvoiceAllocations.map allocationJson))])

def replayLineJson (c : ReceiptLineContextRead) : Json := .obj (lineFields X replayAllocationJson c)

def snapshotJson (line : ReceiptLineContextRead → Json) (s : ThreeWayContextSnapshot) : Json :=
  .obj [("purchase_order_id", .str s.purchaseOrderId.str), ("policy_version", .str s.policyVersion),
    ("lines", .arr (s.lines.map line))]

def idsJson (allocations : List ThreeWayAllocation) : Json :=
  .arr ((sortById (·.id) allocations).map fun a => .str a.id.str)

def fingerprint (envelope : Json) : String := X.sha256 (Json.dumps Json.escapeAscii envelope).toByteArray

variable (receipts : List GoodsReceipt) (allocations : List ThreeWayAllocation) (po : PurchaseOrder)
  (policy : ThreeWayMatchingPolicy) (documentId : Uuid)

def contextEnvelope [DecimalContext] : Json :=
  .obj [("context_version", .str "three-way-context-v2"),
    ("snapshot", snapshotJson (lineJson X) (snapshotOf receipts allocations po policy documentId)),
    ("prior_allocation_ids", idsJson (priorAllocations allocations documentId)),
    ("current_invoice_allocation_ids", idsJson (currentAllocations allocations documentId)),
    ("policy", X.policy policy)]

def replayEnvelope [DecimalContext] : Json :=
  .obj [("context_version", .str "three-way-context-v1"),
    ("snapshot", snapshotJson (replayLineJson X) (snapshotOf receipts allocations po policy documentId)),
    ("allocation_ids", idsJson (priorAllocations allocations documentId)),
    ("policy", X.policy policy)]

/-- `ThreeWayContextBuilder.build`: the snapshot, its fingerprint and its replay fingerprint. -/
def buildContext [DecimalContext] : ThreeWayContextSnapshot × String × String :=
  (snapshotOf receipts allocations po policy documentId,
    fingerprint X (contextEnvelope X receipts allocations po policy documentId),
    fingerprint X (replayEnvelope X receipts allocations po policy documentId))

end

/-- The text is read as a number of value `v`. -/
def TextValue (s : String) (v : ℚ) : Prop := ∃ d, Decimal.ofText s = some d ∧ d.toRat = v

theorem textValue_text (d : Decimal) : TextValue d.text d.toRat := Decimal.ofText_text d

section

variable {receipts : List GoodsReceipt} {allocations : List ThreeWayAllocation} {poLineId : Uuid}

theorem perm_sortById {α : Type} (id : α → Uuid) (xs : List α) : (sortById id xs).Perm xs :=
  List.perm_insertionSort _ _

/-- What is received on a line, as the context sums it. -/
def receivedQuantity [DecimalContext] (receipts : List GoodsReceipt) (poLineId : Uuid) : ℚ :=
  roundedSum ((receipts.filter (·.reversal.isNone)).map (·.quantityOn poLineId))

/-- What the other documents have on a line, as the context sums it in the order of the ids. -/
def previousQuantity [DecimalContext] (allocations : List ThreeWayAllocation) (documentId poLineId : Uuid) : ℚ :=
  roundedSum (((priorAllocations (sortById (·.id) allocations) documentId).filter
    (·.purchaseOrderLineId = poLineId)).map (·.allocatedQuantity.toRat))

/-- A receipt without a line for it adds nothing. -/
theorem toRat_receivedSum [DecimalContext] :
    (receivedSum (activeOn receipts poLineId)).toRat = receivedQuantity receipts poLineId := by
  unfold receivedSum activeOn receiptsOn receivedQuantity
  rw [DecimalContext.toRat_sum]
  have hfold : ∀ (rs : List GoodsReceipt) (total : ℚ), Kept total →
      ((rs.filterMap fun r => (r.lines.find? (·.purchaseOrderLineId = poLineId)).map (receiptRead r)).map
          fun a => ((Decimal.ofText a.acceptedQuantity).getD Decimal.zero).toRat).foldl
            (fun total x => rounded (total + x)) total =
        (rs.map (·.quantityOn poLineId)).foldl (fun total x => rounded (total + x)) total := by
    intro rs
    induction rs with
    | nil => exact fun _ _ => rfl
    | cons r rs ih =>
      intro total htotal
      cases hl : r.lines.find? (·.purchaseOrderLineId = poLineId) with
      | none =>
        have hr : r.quantityOn poLineId = 0 := by simp [GoodsReceipt.quantityOn, hl]
        rw [List.filterMap_cons_none (by rw [hl]; rfl), List.map_cons, List.foldl_cons, hr, add_zero, htotal]
        exact ih total htotal
      | some l =>
        obtain ⟨d, hd, hv⟩ := Decimal.ofText_text l.acceptedQuantity
        have hr : r.quantityOn poLineId = l.acceptedQuantity.toRat := by simp [GoodsReceipt.quantityOn, hl]
        rw [List.filterMap_cons_some (b := receiptRead r l) (by rw [hl]; rfl), List.map_cons, List.map_cons,
          List.foldl_cons, List.foldl_cons, hr]
        simp only [receiptRead, hd, Option.getD_some, hv]
        exact ih _ (DecimalContext.kept_rounded _)
  simp only [List.map_map, roundedSum, Function.comp_def]
  exact hfold (receipts.filter (·.reversal.isNone)) 0 DecimalContext.rounded_zero

theorem toRat_allocatedSum [DecimalContext] {documentId : Uuid} :
    (allocatedSum (priorAllocations (sortById (·.id) allocations) documentId) poLineId).toRat =
      previousQuantity allocations documentId poLineId := by
  rw [allocatedSum, DecimalContext.toRat_sum, List.map_map]
  rfl

theorem allocatedQuantity_perm {as bs : List ThreeWayAllocation} (h : as.Perm bs) :
    allocatedQuantity as poLineId = allocatedQuantity bs poLineId :=
  ((h.filter _).map _).sum_eq

/-- What a receipt has on a line is on the scale its accepted quantities are on. -/
theorem scaled_quantityOn [DecimalContext] {y : ℚ} {n : ℤ} (hy : Scaled n y)
    (h : ∀ r ∈ receipts, ∀ l ∈ r.lines, Scaled (10 ^ 24) l.acceptedQuantity.toRat) {r : GoodsReceipt}
    (hr : r ∈ receipts) (poLineId : Uuid) : Scaled (10 ^ 24) (r.quantityOn poLineId) := by
  unfold GoodsReceipt.quantityOn
  cases hl : r.lines.find? (·.purchaseOrderLineId = poLineId) with
  | none => exact fun p hp => ⟨(hy p hp).1, 0, by norm_num, by simp⟩
  | some l => simpa using h r hr l (List.mem_of_find?_eq_some hl)

/-- Column values received on a line are summed exactly, when they come to no more than such a value. -/
theorem receivedQuantity_eq [DecimalContext] {y : ℚ} {n : ℤ} (hy : Scaled n y) (hn : n ≤ 10 ^ 28)
    (hreceipts : ∀ r ∈ receipts, ∀ l ∈ r.lines, Scaled (10 ^ 24) l.acceptedQuantity.toRat)
    (h : receivedQuantity receipts poLineId ≤ y ∨ activeQuantity receipts poLineId ≤ y) :
    receivedQuantity receipts poLineId = activeQuantity receipts poLineId := by
  refine DecimalContext.roundedSum_eq_sum (n := 10 ^ 24) (fun x hx => ?_) hy hn h
  obtain ⟨r, hr, rfl⟩ := List.mem_map.1 hx
  exact ⟨r.quantityOn_nonneg poLineId, scaled_quantityOn hy hreceipts (List.mem_filter.1 hr).1 poLineId⟩

/-- In the arithmetic of column values a line that stays within the rules of a match does so exactly. -/
theorem quantities_exact [DecimalContext] {documentId : Uuid} {ordered t : ℚ} (hordered : Scaled (10 ^ 24) ordered)
    (ht : Scaled (10 ^ 24) t)
    (hreceipts : ∀ r ∈ receipts, ∀ l ∈ r.lines, Scaled (10 ^ 24) l.acceptedQuantity.toRat)
    (hallocations : ∀ a ∈ allocations, Scaled (10 ^ 24) a.allocatedQuantity.toRat)
    (hover : receivedQuantity receipts poLineId ≤ rounded (ordered + t))
    (hprior : allocatedQuantity (priorAllocations allocations documentId) poLineId ≤ ordered + 2 * t) :
    activeQuantity receipts poLineId ≤ ordered + t ∧
    rounded (rounded (receivedQuantity receipts poLineId - previousQuantity allocations documentId poLineId) + t) =
      activeQuantity receipts poLineId - allocatedQuantity (priorAllocations allocations documentId) poLineId + t := by
  have hlimit : Scaled (10 ^ 24 + 10 ^ 24) (ordered + t) := hordered.add ht
  have hlimit2 : Scaled (10 ^ 24 + (10 ^ 24 + 10 ^ 24)) (ordered + 2 * t) := by
    rw [two_mul]
    exact hordered.add (ht.add ht)
  rw [hlimit.kept (by norm_num)] at hover
  have hreceived : receivedQuantity receipts poLineId = activeQuantity receipts poLineId :=
    receivedQuantity_eq hlimit (by norm_num) hreceipts (.inl hover)
  have hmem : ∀ x ∈ ((priorAllocations (sortById (·.id) allocations) documentId).filter
      (·.purchaseOrderLineId = poLineId)).map (·.allocatedQuantity.toRat), 0 ≤ x ∧ Scaled (10 ^ 24) x := by
    intro x hx
    obtain ⟨a, ha, rfl⟩ := List.mem_map.1 hx
    have hsorted := (List.mem_filter.1 (List.mem_filter.1 ha).1).1
    exact ⟨a.positive.le, hallocations a ((perm_sortById _ _).mem_iff.1 hsorted)⟩
  have hsum : (((priorAllocations (sortById (·.id) allocations) documentId).filter
      (·.purchaseOrderLineId = poLineId)).map (·.allocatedQuantity.toRat)).sum =
        allocatedQuantity (priorAllocations allocations documentId) poLineId :=
    allocatedQuantity_perm ((perm_sortById _ _).filter _)
  have hprevious : previousQuantity allocations documentId poLineId =
      allocatedQuantity (priorAllocations allocations documentId) poLineId :=
    (DecimalContext.roundedSum_eq_sum hmem hlimit2 (by norm_num) (.inr (hsum ▸ hprior))).trans hsum
  rw [hreceived] at hover
  have hactive : Scaled (10 ^ 24 + 10 ^ 24) (activeQuantity receipts poLineId) := by
    refine Scaled.sum_le (n := 10 ^ 24) (fun x hx => ?_) hlimit hover
    obtain ⟨r, hr, rfl⟩ := List.mem_map.1 hx
    exact ⟨r.quantityOn_nonneg poLineId, scaled_quantityOn ht hreceipts (List.mem_filter.1 hr).1 poLineId⟩
  have hallocated : Scaled (10 ^ 24 + (10 ^ 24 + 10 ^ 24))
      (allocatedQuantity (priorAllocations allocations documentId) poLineId) :=
    hsum ▸ Scaled.sum_le hmem hlimit2 (hsum ▸ hprior)
  have hleft := hactive.sub hallocated
  refine ⟨hover, ?_⟩
  rw [hreceived, hprevious, hleft.kept (by norm_num), (hleft.add ht).kept (by norm_num)]

/-- A receipt counts for a line when it has a line for it. -/
def GoodsReceipt.Covers (r : GoodsReceipt) (poLineId : Uuid) : Prop :=
  ∃ l ∈ r.lines, l.purchaseOrderLineId = poLineId

theorem mem_receiptsOn {p : GoodsReceipt → Bool} {x : ReceiptQuantityRead}
    (h : x ∈ receiptsOn receipts p poLineId) :
    ∃ r ∈ receipts, p r = true ∧ r.Covers poLineId ∧ x.receiptId = r.id ∧ x.receivedAt = r.receivedAt := by
  obtain ⟨r, hr, hx⟩ := List.mem_filterMap.1 h
  obtain ⟨l, hl, rfl⟩ := Option.map_eq_some_iff.1 hx
  obtain ⟨hmem, hp⟩ := List.mem_filter.1 hr
  exact ⟨r, hmem, hp, ⟨l, List.mem_of_find?_eq_some hl, by simpa using List.find?_some hl⟩, rfl, rfl⟩

theorem exists_mem_receiptsOn {p : GoodsReceipt → Bool} {r : GoodsReceipt} (hr : r ∈ receipts)
    (hp : p r = true) (hc : r.Covers poLineId) :
    ∃ x ∈ receiptsOn receipts p poLineId, x.receiptId = r.id ∧ x.receivedAt = r.receivedAt := by
  obtain ⟨l, hl, hid⟩ := hc
  have hsome : (r.lines.find? (·.purchaseOrderLineId = poLineId)).isSome :=
    List.find?_isSome.2 ⟨l, hl, by simpa using hid⟩
  obtain ⟨m, hm⟩ := Option.isSome_iff_exists.1 hsome
  exact ⟨receiptRead r m, List.mem_filterMap.2 ⟨r, List.mem_filter.2 ⟨hr, hp⟩, by simp [hm]⟩, rfl, rfl⟩

theorem receiptsOn_eq_nil {p : GoodsReceipt → Bool} :
    receiptsOn receipts p poLineId = [] ↔ ∀ r ∈ receipts, p r = true → ¬ r.Covers poLineId := by
  constructor
  · intro h r hr hp hc
    obtain ⟨x, hx, -⟩ := exists_mem_receiptsOn hr hp hc
    rw [h] at hx
    cases hx
  · intro h
    rw [List.eq_nil_iff_forall_not_mem]
    intro x hx
    obtain ⟨r, hr, hp, hc, -⟩ := mem_receiptsOn hx
    exact h r hr hp hc

/-- What the context says about one purchase-order line, in terms of the rows it was built from. -/
structure LineContextOf [DecimalContext] (receipts : List GoodsReceipt) (allocations : List ThreeWayAllocation)
    (documentId : Uuid) (line : PurchaseOrderLine) (c : ReceiptLineContextRead) : Prop where
  ordered : TextValue c.orderedQuantity line.orderedQuantity.toRat
  received : TextValue c.effectiveReceivedQuantity (receivedQuantity receipts line.id)
  previous : TextValue c.previouslyAllocatedQuantity (previousQuantity allocations documentId line.id)
  available : TextValue c.availableQuantity
    (rounded (receivedQuantity receipts line.id - previousQuantity allocations documentId line.id))
  active : c.activeReceipts.Perm (activeOn receipts line.id)
  reversed : c.reversedReceipts.Perm (reversedOn receipts line.id)

theorem lineContext_spec [DecimalContext] (documentId : Uuid) (line : PurchaseOrderLine) :
    LineContextOf receipts allocations documentId line (lineContext receipts allocations documentId line) := by
  refine ⟨textValue_text _, ?_, ?_, ?_, perm_sortById _ _, perm_sortById _ _⟩
  · rw [← toRat_receivedSum]; exact textValue_text _
  · rw [← toRat_allocatedSum]; exact textValue_text _
  · rw [← toRat_receivedSum, ← toRat_allocatedSum, ← DecimalContext.toRat_subtract]; exact textValue_text _

end

/-- The context has one entry per purchase-order line, found under the line's id. -/
theorem find_snapshotOf [DecimalContext] {receipts : List GoodsReceipt} {allocations : List ThreeWayAllocation}
    {po : PurchaseOrder} {policy : ThreeWayMatchingPolicy} {documentId : Uuid} {line : PurchaseOrderLine}
    (h : line ∈ po.lines) :
    (snapshotOf receipts allocations po policy documentId).lines.reverse.find?
        (·.purchaseOrderLineId = line.id) = some (lineContext receipts allocations documentId line) := by
  have hkeys : ((snapshotOf receipts allocations po policy documentId).lines.map
      (·.purchaseOrderLineId)).Nodup := by
    simpa [snapshotOf, lineContext, Function.comp_def] using po.line_ids
  exact Lists.find?_reverse_key hkeys (List.mem_map_of_mem h)

end InvoiceOps
