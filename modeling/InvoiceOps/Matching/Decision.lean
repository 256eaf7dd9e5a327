import InvoiceOps.Matching.ThreeWay

/-! What a matched three-way result guarantees: it is backed by the receipt and allocation rows its context was built
from, within the tolerances and in the arithmetic of the decimal context. A product that is rounded can pass a
tolerance its exact value does not. -/

namespace InvoiceOps

open Calendar GreedyMatching
open DecimalContext (rounded)

section

variable {T : TextOps} {invoice : Invoice} {po : PurchaseOrderRead}

/-- The context has an entry for every line of the purchase order, and its quantities are decimals. -/
def ThreeWayContextSnapshot.Answers (context : ThreeWayContextSnapshot) (po : PurchaseOrderRead) : Prop :=
  ∀ poLine ∈ po.lines, ∃ line, context.lines.reverse.find? (·.purchaseOrderLineId = poLine.id) = some line ∧
    (∃ v, TextValue line.effectiveReceivedQuantity v) ∧ (∃ v, TextValue line.orderedQuantity v) ∧
    (∃ v, TextValue line.availableQuantity v) ∧ ∃ v, TextValue line.previouslyAllocatedQuantity v

theorem answers_snapshotOf [DecimalContext] (receipts : List GoodsReceipt) (allocations : List ThreeWayAllocation)
    (order : PurchaseOrder)
    (policy : ThreeWayMatchingPolicy) (documentId : Uuid) :
    (snapshotOf receipts allocations order policy documentId).Answers order.toRead := by
  intro poLine hline
  have hspec : LineContextOf receipts allocations documentId poLine _ := lineContext_spec documentId poLine
  exact ⟨_, find_snapshotOf hline, ⟨_, hspec.received⟩, ⟨_, hspec.ordered⟩, ⟨_, hspec.available⟩, _, hspec.previous⟩

theorem threeWayAssignment_of_answers [DecimalContext] {context : ThreeWayContextSnapshot} {policy : ThreeWayMatchingPolicy}
    (h : context.Answers po) (p : Pair invoice po) :
    ∃ o, threeWayAssignment invoice po context policy (assignment T policy.toTolerances p) = some o ∧ True := by
  have hmem : p.poLine ∈ po.lines := List.get_mem _ _
  obtain ⟨line, hline, ⟨_, received, hreceived, -⟩, ⟨_, ordered, hordered, -⟩, ⟨_, available, havailable, -⟩, _,
    previous, hprevious, -⟩ := h p.poLine hmem
  obtain ⟨poLine, hpoLine⟩ : ∃ poLine, po.lines.reverse.find? (·.id = p.poLine.id) = some poLine := by
    rw [← Option.isSome_iff_exists, List.find?_isSome]
    exact ⟨p.poLine, List.mem_reverse.2 hmem, by simp⟩
  have hl : invoice.lineItems[(p.invoiceIndex : ℕ)]? = some p.invoiceLine :=
    List.getElem?_eq_getElem p.invoiceIndex.isLt
  have ha : (assignment T policy.toTolerances p).poLineId = p.poLine.id := rfl
  have hi : (assignment T policy.toTolerances p).invoiceLineIndex = p.invoiceIndex := rfl
  simp only [threeWayAssignment, ha, hi, hl, hpoLine, hline, hordered, hreceived, havailable, hprevious,
    Option.bind_eq_bind, Option.bind_some, and_true]
  split <;> exact ⟨_, rfl⟩

theorem exists_matchInvoiceThreeWay_of_answers [DecimalContext] (T : TextOps) (invoice : Invoice)
    (policy : ThreeWayMatchingPolicy) {context : ThreeWayContextSnapshot} (h : context.Answers po) :
    ∃ r drafts, matchInvoiceThreeWay T invoice po context policy = some (r, drafts) := by
  have hall : ∀ p ∈ assignedPairs T invoice po policy.toTolerances, ∃ o,
      threeWayAssignment invoice po context policy (assignment T policy.toTolerances p) = some o ∧ True := fun p _ =>
    threeWayAssignment_of_answers h p
  obtain ⟨outcomes, houtcomes, -⟩ := Lists.exists_forall₂_iff.2 hall
  exact ⟨_, _, matchInvoiceThreeWay_eq_some.2 ⟨outcomes, houtcomes, rfl, rfl⟩⟩

end

/-- The rules on an invoice line and its purchase-order line, in terms of the rows. In exact arithmetic `rounded`
changes nothing and the quantities are the sums over the rows. -/
structure LineBacked [DecimalContext] (receipts : List GoodsReceipt) (allocations : List ThreeWayAllocation)
    (documentId : Uuid) (invoiceDate : ExtractedField Date) (policy : ThreeWayMatchingPolicy)
    (line : InvoiceLine) (poLine : PurchaseOrderLine) (quantity unitPrice lineTotal : Decimal) : Prop where
  quantityHolds : line.quantity.Holds quantity
  unitPriceHolds : line.unitPrice.Holds unitPrice
  lineTotalHolds : line.lineTotal.Holds lineTotal
  active : ∃ r ∈ receipts, r.reversal = none ∧ r.Covers poLine.id
  notReversed : ∀ r ∈ receipts, r.Covers poLine.id → r.reversal = none
  dates : ∀ day, invoiceDate.Holds day → ∀ r ∈ receipts, r.reversal = none → r.Covers poLine.id →
    r.receivedAt.date ≤ (day.ordinal : ℤ)
  notOver : receivedQuantity receipts poLine.id ≤
    rounded (poLine.orderedQuantity.toRat + policy.quantityAbsolute.toRat)
  available : quantity.toRat ≤ rounded (rounded (receivedQuantity receipts poLine.id -
    previousQuantity allocations documentId poLine.id) + policy.quantityAbsolute.toRat)
  complete : policy.allowPartialInvoice = false →
    rounded (poLine.orderedQuantity.toRat - policy.quantityAbsolute.toRat) ≤ quantity.toRat
  price : PriceOk policy.toTolerances poLine unitPrice
  amount : |rounded (lineTotal.toRat - rounded (quantity.toRat * poLine.unitPrice.toRat))| ≤
    policy.amountAbsolute.toRat

section

variable {T : TextOps} {invoice : Invoice} {po : PurchaseOrder} {receipts : List GoodsReceipt}
  {allocations : List ThreeWayAllocation} {policy : ThreeWayMatchingPolicy} {documentId : Uuid}

theorem textValue_unique {s : String} {v w : ℚ} (hv : TextValue s v) (hw : TextValue s w) : v = w := by
  obtain ⟨d, hd, rfl⟩ := hv
  obtain ⟨e, he, rfl⟩ := hw
  rw [Option.some.inj (hd.symm.trans he)]

theorem lineBacked_of_pair [DecimalContext] {p : Pair invoice po.toRead} {line : ReceiptLineContextRead} {o r v : ℚ}
    (hline : LineOk policy.toTolerances p.invoiceLine)
    (h : ThreeWayPairOk (snapshotOf receipts allocations po policy documentId) policy p line o r v) :
    ∃ q u t, LineBacked receipts allocations documentId invoice.invoiceDate policy p.invoiceLine p.poLine q u t := by
  have hmem : p.poLine ∈ po.lines := List.get_mem _ _
  obtain rfl : lineContext receipts allocations documentId p.poLine = line :=
    Option.some.inj ((find_snapshotOf hmem).symm.trans h.entry)
  have hspec : LineContextOf receipts allocations documentId p.poLine _ := lineContext_spec documentId p.poLine
  obtain rfl := textValue_unique h.orderedText hspec.ordered
  obtain rfl := textValue_unique h.receivedText hspec.received
  obtain rfl := textValue_unique h.availableText hspec.available
  obtain ⟨q, u, t, hq, hu, ht, -⟩ := hline
  have hactive : activeOn receipts p.poLine.id ≠ [] := fun hnil => h.active (by
    have := hspec.active
    rw [hnil] at this
    exact this.eq_nil)
  have hreversed : reversedOn receipts p.poLine.id = [] := by
    have := hspec.reversed
    rw [h.notReversed] at this
    exact this.symm.eq_nil
  refine ⟨q, u, t, hq.1, hu.1, ht.1, ?_, ?_, ?_, h.notOver, (h.quantity q hq.1).1, (h.quantity q hq.1).2,
    h.unitPrice u hu.1.2, h.lineTotal q t hq.1 ht.1.2⟩
  · by_contra hnone
    refine hactive (receiptsOn_eq_nil.2 fun r hr hp hc => hnone ⟨r, hr, ?_, hc⟩)
    simpa using hp
  · intro r hr hc
    by_contra hsome
    exact receiptsOn_eq_nil.1 hreversed r hr (Option.isSome_iff_ne_none.2 hsome) hc
  · intro day hday r hr hrev hc
    obtain ⟨x, hx, -, hat⟩ := exists_mem_receiptsOn hr (p := (·.reversal.isNone)) (by simp [hrev]) hc
    rw [← hat]
    exact h.dates day hday x (hspec.active.mem_iff.2 hx)

theorem exists_matchInvoiceThreeWay [DecimalContext] (T : TextOps) (invoice : Invoice) (po : PurchaseOrder)
    (receipts : List GoodsReceipt) (allocations : List ThreeWayAllocation) (policy : ThreeWayMatchingPolicy)
    (documentId : Uuid) : ∃ r drafts, matchInvoiceThreeWay T invoice po.toRead
      (snapshotOf receipts allocations po policy documentId) policy = some (r, drafts) :=
  exists_matchInvoiceThreeWay_of_answers T invoice policy (answers_snapshotOf receipts allocations po policy documentId)

/-- The header rules hold for a matched invoice, and every assignment is backed by the rows. -/
theorem backed_of_matched [DecimalContext] {r : MatchResult} {drafts : List AllocationDraft}
    (h : matchInvoiceThreeWay T invoice po.toRead (snapshotOf receipts allocations po policy documentId) policy =
      some (r, drafts)) (hm : r.decision = .matched) :
    HeaderOk invoice po.toRead policy.toTolerances ∧
      ∀ a ∈ r.lineAssignments, ∃ line poLine, invoice.lineItems[a.invoiceLineIndex]? = some line ∧
        poLine ∈ po.lines ∧ poLine.id = a.poLineId ∧ ∃ q u t,
          LineBacked receipts allocations documentId invoice.invoiceDate policy line poLine q u t := by
  obtain ⟨hheader, -, hpairs⟩ := (three_way_matched_iff po.line_ids).1 ⟨_, _, h, hm⟩
  refine ⟨hheader, fun a ha => ?_⟩
  have hmem : (a.invoiceLineIndex, a.poLineId) ∈ (assignedPairs T invoice po.toRead policy.toTolerances).map
      fun p => ((p.invoiceIndex : ℕ), p.poLine.id) := by
    rw [← represents_threeWay h]
    exact List.mem_map_of_mem ha
  obtain ⟨p, hp, heq⟩ := List.mem_map.1 hmem
  obtain ⟨hindex, hid⟩ := Prod.mk.inj heq
  obtain ⟨-, line, o, r, v, hok⟩ := hpairs p (perm_assignedPairs.mem_iff.1 hp)
  refine ⟨p.invoiceLine, p.poLine, ?_, List.get_mem _ _, hid, lineBacked_of_pair (hheader.line p) hok⟩
  rw [← hindex]
  exact List.getElem?_eq_getElem p.invoiceIndex.isLt

end

/-- A matched three-way result has an assignment: the first candidate is not left out. -/
theorem lineAssignments_ne_nil [DecimalContext] {T : TextOps} {invoice : Invoice} {po : PurchaseOrderRead}
    {context : ThreeWayContextSnapshot} {policy : ThreeWayMatchingPolicy} {r : MatchResult}
    {drafts : List AllocationDraft} (hids : (po.lines.map (·.id)).Nodup)
    (h : matchInvoiceThreeWay T invoice po context policy = some (r, drafts)) (hm : r.decision = .matched) :
    r.lineAssignments ≠ [] := by
  intro hnil
  obtain ⟨hheader, hresolved, -⟩ := (three_way_matched_iff hids).1 ⟨r, drafts, h, hm⟩
  have hpairs : selectedPairs T invoice po policy.toTolerances = [] := by
    have hrep := (represents_threeWay h).symm
    rw [hnil, List.map_nil, List.map_eq_nil_iff] at hrep
    exact (hrep ▸ perm_assignedPairs).symm.eq_nil
  have i : Fin invoice.lineItems.length := ⟨0, List.length_pos_iff.2 hheader.financials.nonempty⟩
  have hexact : (exactPass T invoice po policy.toTolerances).selected = [] :=
    List.prefix_nil.1 (hpairs ▸ prefix_greedy _ _)
  have hi : i ∈ (exactPass T invoice po policy.toTolerances).unresolvedInvoice :=
    (exactPass_inv.unresolved i).2 ⟨by simp [hexact], by simp [hresolved.1]⟩
  obtain ⟨e, he⟩ := List.exists_mem_of_ne_nil _ (candidateIssue_eq_none.1 (hresolved.2 i hi))
  have hindex : e.invoiceIndex = i := (mem_eligible (mem_candidateEdges he)).1
  have hranked : e ∈ rankedCandidates T invoice po policy.toTolerances :=
    mem_rankedCandidates.2 (by rw [hindex]; exact ⟨hi, he⟩)
  have hblocked : Blocked Pair.invoiceIndex Pair.poIndex (selectedPairs T invoice po policy.toTolerances) e :=
    blocked_greedy hranked
  rw [hpairs] at hblocked
  simp [Blocked] at hblocked

/-- A three-way match against the context built for the purchase order always gives a result. When
it is matched, the header rules hold, every assignment is backed by receipts, and there is exactly one
draft per assignment; otherwise there is none. -/
theorem matchInvoiceThreeWay_sound [DecimalContext] (T : TextOps) (X : Dumps) (invoice : Invoice)
    (po : PurchaseOrder) (receipts : List GoodsReceipt) (allocations : List ThreeWayAllocation) (documentId : Uuid)
    (policy : ThreeWayMatchingPolicy) :
    ∃ r drafts, matchInvoiceThreeWay T invoice po.toRead
        (buildContext X receipts allocations po policy documentId).1 policy = some (r, drafts) ∧
      (r.decision = .matched → HeaderOk invoice po.toRead policy.toTolerances ∧
        (∀ a ∈ r.lineAssignments, ∃ line poLine, invoice.lineItems[a.invoiceLineIndex]? = some line ∧
          poLine ∈ po.lines ∧ poLine.id = a.poLineId ∧ ∃ q u t,
            LineBacked receipts allocations documentId invoice.invoiceDate policy line poLine q u t) ∧
        List.Forall₂ (fun a d => d.purchaseOrderLineId = a.poLineId ∧
          d.invoiceLineIndex = a.invoiceLineIndex ∧
          ∃ l, invoice.lineItems[a.invoiceLineIndex]? = some l ∧ l.quantity.Holds d.quantity)
          r.lineAssignments drafts) ∧
      (r.decision = .needsReview → drafts = []) := by
  obtain ⟨r, drafts, h⟩ := exists_matchInvoiceThreeWay T invoice po receipts allocations policy documentId
  refine ⟨r, drafts, h, fun hm => ?_, drafts_of_needsReview h⟩
  obtain ⟨hheader, hbacked⟩ := backed_of_matched h hm
  exact ⟨hheader, hbacked, drafts_of_matched h hm⟩

/-- A product of 29 digits: the quantity and the price of one line. -/
def longFactor : Decimal := ⟨false, 100000000000001, -8⟩

def longInvoice : Invoice :=
  { filterInvoice with
    subtotal := printed ⟨false, 100000000000000, -2⟩ "1000000000000.00"
    total := printed ⟨false, 100000000000000, -2⟩ "1000000000000.00"
    lineItems :=
      [{ filterLine "Cable" with
         quantity := printed longFactor "1000000.00000001"
         unitPrice := printed longFactor "1000000.00000001"
         lineTotal := printed ⟨false, 100000000000000, -2⟩ "1000000000000.00" }] }

def longPurchase : PurchaseOrder where
  id := Uuid.ofNat 1
  externalPoNumber := "PO-1"
  vendorName := some "Acme"
  currency := "EUR"
  createdAt := .first
  lines :=
    [{ id := Uuid.ofNat 2
       purchaseOrderId := Uuid.ofNat 1
       lineNumber := "1"
       description := "Cable"
       orderedQuantity := longFactor
       unitPrice := longFactor
       lineTotal := none }]
  line_ids := List.nodup_singleton _

def longReceipt : GoodsReceipt where
  id := Uuid.ofNat 3
  purchaseOrderId := Uuid.ofNat 1
  externalReceiptNumber := "GR-1"
  receivedAt := .first
  requestFingerprint := ""
  lines := [⟨Uuid.ofNat 2, longFactor, by norm_num [longFactor, Decimal.toRat, Decimal.int]⟩]
  reversal := none
  line_ids := List.nodup_singleton _

/-- The last digit of the product is rounded away, and with it the difference that exceeds the tolerance: the line is
matched although its total is not within the tolerance of the exact product. -/
theorem long_product_matched : ∃ r drafts, matchInvoiceThreeWay asciiTextOps longInvoice longPurchase.toRead
      (snapshotOf [longReceipt] [] longPurchase .default (Uuid.ofNat 4)) .default = some (r, drafts) ∧
    r.decision = .matched ∧ ¬ ∀ a ∈ r.lineAssignments, ∃ line poLine,
      longInvoice.lineItems[a.invoiceLineIndex]? = some line ∧ poLine ∈ longPurchase.lines ∧ ∃ q u t,
        @LineBacked .exact [longReceipt] [] (Uuid.ofNat 4) longInvoice.invoiceDate .default line poLine q u t := by
  have hmatched : (matchInvoiceThreeWay asciiTextOps longInvoice longPurchase.toRead
      (snapshotOf [longReceipt] [] longPurchase .default (Uuid.ofNat 4)) .default).map
        (fun r => (r.1.decision, r.1.lineAssignments.length)) = some (.matched, 1) := by decide +kernel
  obtain ⟨⟨r, drafts⟩, hresult, heq⟩ := Option.map_eq_some_iff.1 hmatched
  obtain ⟨hdecision, hlength⟩ := Prod.mk.inj heq
  refine ⟨r, drafts, hresult, hdecision, fun hall => ?_⟩
  obtain ⟨a, ha⟩ := List.length_eq_one_iff.1 hlength
  obtain ⟨line, poLine, hline, hpoLine, q, u, t, ⟨hquantity, -, htotal, -, -, -, -, -, -, -, hamount⟩⟩ :=
    hall a (by rw [ha]; simp)
  obtain rfl := List.mem_singleton.1 (List.mem_of_getElem? hline)
  obtain rfl := List.mem_singleton.1 hpoLine
  obtain rfl := Option.some.inj hquantity.2
  obtain rfl := Option.some.inj htotal.2
  revert hamount
  decide +kernel

end InvoiceOps
