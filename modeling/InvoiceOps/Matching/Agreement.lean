import InvoiceOps.Matching.Allocation

/-! Two-way and three-way matching of one invoice against an order that was received in full. The
three-way engine drops the two-way checks of quantity, price and amount and makes its own against the
receipts. When each line was received as ordered, by the day of the invoice, and is not invoiced
elsewhere, what the two-way engine accepts the three-way engine accepts too, with the same pairs. -/

namespace InvoiceOps

open Calendar GreedyMatching

/-- Equal tolerances and description parameters. Decimals are equal when their numbers are. -/
structure Tolerances.Equal (s t : Tolerances) : Prop where
  amount : s.amountAbsolute.numEq t.amountAbsolute
  quantity : s.quantityAbsolute.numEq t.quantityAbsolute
  unitPrice : s.unitPriceRelative.numEq t.unitPriceRelative
  threshold : s.descriptionSimilarityThreshold = t.descriptionSimilarityThreshold
  margin : s.ambiguityMargin = t.ambiguityMargin

/-- The context says of a purchase-order line that it was received in full, by the day of the invoice,
and that no other document has an allocation on it. -/
structure FullyReceived (invoice : Invoice) (line : ReceiptLineContextRead) : Prop where
  active : line.activeReceipts ≠ []
  received : ∃ v, TextValue line.effectiveReceivedQuantity v ∧ TextValue line.orderedQuantity v
  notReversed : line.reversedReceipts = []
  unallocated : line.priorAllocations = []
  dates : ∀ day, invoice.invoiceDate.Holds day →
    ∀ r ∈ line.activeReceipts, r.receivedAt.date ≤ (day.ordinal : ℤ)

/-- What two assignments of one pair have in common, whatever their checks are. -/
def LineAssignment.pairing (a : LineAssignment) : ℕ × Uuid × ℚ :=
  (a.invoiceLineIndex, a.poLineId, a.descriptionScore)

section

variable {T : TextOps} {invoice : Invoice} {po : PurchaseOrderRead} {s t : Tolerances}

/-- The pass over equal descriptions reads the margin only, for the text of its check. -/
theorem exactPass_congr (h : s.ambiguityMargin = t.ambiguityMargin) :
    exactPass T invoice po s = exactPass T invoice po t := by
  have hstep : @exactStep T invoice po s = @exactStep T invoice po t := by
    funext e i
    simp only [exactStep, h]
  rw [exactPass, exactPass, hstep]

theorem lineCandidates_congr (hthreshold : s.descriptionSimilarityThreshold = t.descriptionSimilarityThreshold)
    (hmargin : s.ambiguityMargin = t.ambiguityMargin) :
    @lineCandidates T invoice po s = @lineCandidates T invoice po t := by
  funext available i
  simp only [lineCandidates, eligible, hthreshold, hmargin]

theorem selectedPairs_congr (hthreshold : s.descriptionSimilarityThreshold = t.descriptionSimilarityThreshold)
    (hmargin : s.ambiguityMargin = t.ambiguityMargin) :
    selectedPairs T invoice po s = selectedPairs T invoice po t := by
  have hedges : @candidateEdges T invoice po s = @candidateEdges T invoice po t := by
    funext available i
    simp only [candidateEdges, lineCandidates_congr hthreshold hmargin]
  simp only [selectedPairs, rankedCandidates, exactPass_congr hmargin, hedges]

theorem assignedPairs_congr [DecimalContext] (hthreshold : s.descriptionSimilarityThreshold = t.descriptionSimilarityThreshold)
    (hmargin : s.ambiguityMargin = t.ambiguityMargin) :
    assignedPairs T invoice po s = assignedPairs T invoice po t := by
  simp only [assignedPairs, candidatePairs, selectedPairs_congr hthreshold hmargin]

theorem linesResolved_congr (hthreshold : s.descriptionSimilarityThreshold = t.descriptionSimilarityThreshold)
    (hmargin : s.ambiguityMargin = t.ambiguityMargin) :
    LinesResolved T invoice po s ↔ LinesResolved T invoice po t := by
  have hissue : @candidateIssue T invoice po s = @candidateIssue T invoice po t := by
    funext available i
    simp only [candidateIssue, lineCandidates_congr hthreshold hmargin]
  simp only [LinesResolved, exactPass_congr hmargin, hissue]

theorem HeaderOk.congr [DecimalContext] (hok : HeaderOk invoice po s) (h : s.amountAbsolute.numEq t.amountAbsolute) :
    HeaderOk invoice po t := by
  rw [Decimal.numEq_iff] at h
  obtain ⟨⟨hissues, hcurrency, hne, hlines, hheader⟩, hcode, hpo⟩ := hok
  simp only [LineOk, h] at hlines hheader hpo
  exact ⟨⟨hissues, hcurrency, hne, hlines, hheader⟩, hcode, hpo⟩

end

theorem pairing_threeWayAssignment [DecimalContext] {invoice : Invoice} {po : PurchaseOrderRead}
    {context : ThreeWayContextSnapshot}
    {policy : ThreeWayMatchingPolicy} {a : LineAssignment} {o : LineAssignment × Option AllocationDraft}
    (h : threeWayAssignment invoice po context policy a = some o) : a.pairing = o.1.pairing := by
  obtain ⟨line, l, poLine, received, ordered, -, ⟨-, rfl⟩ | ⟨q, available, previous, -, -, -, rfl⟩⟩ :=
    threeWayAssignment_eq_some.1 h
  · rfl
  · rfl

section

variable {T : TextOps} {invoice : Invoice} {po : PurchaseOrder} {receipts : List GoodsReceipt}
  {allocations : List ThreeWayAllocation} {documentId : Uuid} {policy : ThreeWayMatchingPolicy}

theorem FullyReceived.quantities [DecimalContext] {line : PurchaseOrderLine}
    (h : FullyReceived invoice (lineContext receipts allocations documentId line)) :
    receivedQuantity receipts line.id = line.orderedQuantity.toRat ∧
      previousQuantity allocations documentId line.id = 0 := by
  have hspec : LineContextOf receipts allocations documentId line _ := lineContext_spec documentId line
  obtain ⟨v, hreceived, hordered⟩ := h.received
  refine ⟨(textValue_unique hspec.received hreceived).trans (textValue_unique hordered hspec.ordered), ?_⟩
  have hnone : (priorAllocations (sortById (·.id) allocations) documentId).filter
      (·.purchaseOrderLineId = line.id) = [] := by
    have hlist := h.unallocated
    simp only [lineContext] at hlist
    exact List.map_eq_nil_iff.1 hlist
  rw [previousQuantity, hnone]
  rfl

theorem PairOk.quantity_eq [DecimalContext] {s : Tolerances} {p : Pair invoice po.toRead} (h : PairOk s p)
    (hzero : s.quantityAbsolute.toRat = 0) {q : Decimal} (hq : p.invoiceLine.quantity.Holds q) :
    q.toRat = p.poLine.orderedQuantity.toRat := by
  have hle := h.quantity q hq
  rw [hzero] at hle
  exact sub_eq_zero.1 (DecimalContext.rounded_eq_zero.1 (abs_nonpos_iff.1 hle))

theorem threeWayPairOk_of_pairOk [DecimalContext] {s : Tolerances} {p : Pair invoice po.toRead}
    (hequal : s.Equal policy.toTolerances)
    (hzero : policy.quantityAbsolute.toRat = 0) (hline : LineOk s p.invoiceLine) (hok : PairOk s p)
    (hfull : FullyReceived invoice (lineContext receipts allocations documentId p.poLine)) :
    policy.descriptionSimilarityThreshold ≤ p.score ∧
      ∃ line ordered received available, ThreeWayPairOk (snapshotOf receipts allocations po policy documentId)
        policy p line ordered received available := by
  have hspec : LineContextOf receipts allocations documentId p.poLine _ := lineContext_spec documentId p.poLine
  obtain ⟨hreceived, hprior⟩ := hfull.quantities
  have hsame := (Decimal.numEq_iff _ _).1 hequal.quantity
  have hquantity : ∀ q, p.invoiceLine.quantity.Holds q → q.toRat = p.poLine.orderedQuantity.toRat := fun q hq =>
    hok.quantity_eq (hsame.trans hzero) hq
  have hkept : DecimalContext.rounded p.poLine.orderedQuantity.toRat = p.poLine.orderedQuantity.toRat := by
    rw [← hreceived]
    exact DecimalContext.kept_roundedSum _
  obtain ⟨-, u, t, -, hu, ht, -⟩ := hline
  refine ⟨hequal.threshold ▸ hok.score, _, _, _, _, find_snapshotOf (List.get_mem _ _), hspec.ordered,
    hspec.received, hspec.available, ⟨_, hspec.previous⟩, hfull.notReversed, hfull.active, hfull.dates, ?_, ?_, ?_, ?_⟩
  · rw [hreceived, hzero, add_zero, hkept]
  · intro q hq
    rw [hreceived, hprior, hzero, hquantity q hq, sub_zero, add_zero, hkept, hkept]
    exact ⟨le_rfl, fun _ => le_rfl⟩
  · intro u' hu'
    obtain rfl := Option.some.inj (hu.1.2.symm.trans hu')
    have hprice := priceOk_iff.1 (hok.unitPrice _ hu.1)
    rw [(Decimal.numEq_iff _ _).1 hequal.unitPrice] at hprice
    exact priceOk_iff.2 hprice
  · intro q t' hq ht'
    obtain rfl := Option.some.inj (ht.1.2.symm.trans ht')
    have htotal := hok.lineTotal _ ht.1
    rw [(Decimal.numEq_iff _ _).1 hequal.amount] at htotal
    rw [hquantity q hq]
    exact htotal

theorem pairing_threeWay [DecimalContext] {r : MatchResult} {drafts : List AllocationDraft} {order : PurchaseOrderRead}
    {context : ThreeWayContextSnapshot}
    (h : matchInvoiceThreeWay T invoice order context policy = some (r, drafts)) :
    r.lineAssignments.map LineAssignment.pairing =
      (assignedPairs T invoice order policy.toTolerances).map fun p => ((p.invoiceIndex : ℕ), p.poLine.id, p.score) := by
  obtain ⟨outcomes, houtcomes, rfl, -⟩ := matchInvoiceThreeWay_eq_some.1 h
  have hmap := Lists.map_eq_map_of_forall₂ (houtcomes.imp fun p o ho => pairing_threeWayAssignment ho)
  simp only [MatchResult.ofChecks, List.map_map]
  exact hmap.symm

end

section

variable {T : TextOps} {invoice : Invoice} {po : PurchaseOrder} {context : ThreeWayContextSnapshot}
  {policy : ThreeWayMatchingPolicy} {r : MatchResult} {drafts : List AllocationDraft}

theorem exists_pair_of_draft [DecimalContext] (h : matchInvoiceThreeWay T invoice po.toRead context policy = some (r, drafts))
    (hm : r.decision = .matched) {d : AllocationDraft} (hd : d ∈ drafts) :
    ∃ p ∈ selectedPairs T invoice po.toRead policy.toTolerances, p.poLine.id = d.purchaseOrderLineId ∧
      p.invoiceLine.quantity.Holds d.quantity := by
  obtain ⟨a, ha, hid, hindex, l, hl, hq⟩ := Lists.exists_of_forall₂_mem (drafts_of_matched h hm) hd
  have hmem : (a.invoiceLineIndex, a.poLineId) ∈ (assignedPairs T invoice po.toRead policy.toTolerances).map
      fun p => ((p.invoiceIndex : ℕ), p.poLine.id) := by
    rw [← represents_threeWay h]
    exact List.mem_map_of_mem ha
  obtain ⟨p, hp, heq⟩ := List.mem_map.1 hmem
  obtain ⟨hpi, hpo⟩ := Prod.mk.inj heq
  have hline : invoice.lineItems[(p.invoiceIndex : ℕ)]? = some p.invoiceLine :=
    List.getElem?_eq_getElem p.invoiceIndex.isLt
  rw [hpi, hl] at hline
  refine ⟨p, perm_assignedPairs.mem_iff.1 hp, hpo.trans hid.symm, ?_⟩
  rw [← Option.some.inj hline]
  exact hq

/-- When every purchase-order line is in a pair, every line has exactly one draft. -/
theorem exists_draft_of_covered [DecimalContext]
    (h : matchInvoiceThreeWay T invoice po.toRead context policy = some (r, drafts))
    (hm : r.decision = .matched)
    (hcovered : ∀ j, j ∈ (selectedPairs T invoice po.toRead policy.toTolerances).map Pair.poIndex)
    {line : PurchaseOrderLine} (hline : line ∈ po.lines) :
    ∃ d ∈ drafts, drafts.filter (·.purchaseOrderLineId = line.id) = [d] ∧ d.purchaseOrderLineId = line.id := by
  have hids : drafts.map (·.purchaseOrderLineId) = r.lineAssignments.map (·.poLineId) := by
    refine (Lists.map_eq_map_of_forall₂ ((drafts_of_matched h hm).imp fun a d had => ?_)).symm
    exact had.1.symm
  have hmem : line.id ∈ drafts.map (·.purchaseOrderLineId) := by
    have horder : CoversOrder po.toRead r.lineAssignments := (coversOrder_iff (represents_threeWay h)).2 hcovered
    rw [hids, horder.mem_iff]
    exact List.mem_map_of_mem hline
  have hkeys : (drafts.map (·.purchaseOrderLineId)).Nodup := by
    rw [hids]
    exact nodup_poLineId po.line_ids (represents_threeWay h)
  obtain ⟨d, hd, hid⟩ := List.mem_map.1 hmem
  exact ⟨d, hd, hid ▸ Lists.filter_key hkeys hd, hid⟩

end

/-- An invoice that is matched two-way against an order received in full is matched three-way, with
the same pairs and scores, and its allocations take from every line exactly what was ordered. -/
theorem three_way_agrees [DecimalContext] (T : TextOps) (X : Dumps) (invoice : Invoice) (po : PurchaseOrder)
    (receipts : List GoodsReceipt) (allocations : List ThreeWayAllocation) (documentId : Uuid)
    (policy : MatchingPolicy) (threeWayPolicy : ThreeWayMatchingPolicy)
    (hequal : policy.toTolerances.Equal threeWayPolicy.toTolerances)
    (hzero : threeWayPolicy.quantityAbsolute.numEq Decimal.zero)
    (hfull : ∀ line ∈ (buildContext X receipts allocations po threeWayPolicy documentId).1.lines,
      FullyReceived invoice line)
    (hmatched : (matchInvoice T invoice po.toRead policy).decision = .matched) :
    ∃ r drafts, matchInvoiceThreeWay T invoice po.toRead
        (buildContext X receipts allocations po threeWayPolicy documentId).1 threeWayPolicy = some (r, drafts) ∧
      r.decision = .matched ∧
      r.lineAssignments.map LineAssignment.pairing =
        (matchInvoice T invoice po.toRead policy).lineAssignments.map LineAssignment.pairing ∧
      ∀ line ∈ po.lines, ∃ d, drafts.filter (·.purchaseOrderLineId = line.id) = [d] ∧
        d.quantity.numEq line.orderedQuantity := by
  rw [Decimal.numEq_iff, Decimal.toRat_zero] at hzero
  obtain ⟨hheader, hresolved, hcovered, hpairs⟩ := matched_iff.1 hmatched
  have hzero' : policy.quantityAbsolute.toRat = 0 := ((Decimal.numEq_iff _ _).1 hequal.quantity).trans hzero
  rw [selectedPairs_congr hequal.threshold hequal.margin] at hcovered hpairs
  have haccept : AcceptableThreeWay T invoice po.toRead (snapshotOf receipts allocations po threeWayPolicy documentId)
      threeWayPolicy (selectedPairs T invoice po.toRead threeWayPolicy.toTolerances) := by
    refine ⟨hheader.congr hequal.amount, (linesResolved_congr hequal.threshold hequal.margin).1 hresolved, fun p hp => ?_⟩
    refine threeWayPairOk_of_pairOk hequal hzero (hheader.line p) (hpairs p hp) (hfull _ ?_)
    exact List.mem_map_of_mem (List.get_mem _ _)
  obtain ⟨r, drafts, h, hm⟩ := (three_way_matched_iff po.line_ids).2 haccept
  refine ⟨r, drafts, h, hm, ?_, fun line hline => ?_⟩
  · rw [pairing_threeWay h, ← assignedPairs_congr hequal.threshold hequal.margin, lineAssignments_matchInvoice,
      List.map_map]
    rfl
  · obtain ⟨d, hd, hfilter, hid⟩ := exists_draft_of_covered h hm hcovered hline
    obtain ⟨p, hp, hpid, hq⟩ := exists_pair_of_draft h hm hd
    have hsame : p.poLine = line :=
      List.inj_on_of_nodup_map po.line_ids (List.get_mem _ _) hline (hpid.trans hid)
    refine ⟨d, hfilter, (Decimal.numEq_iff _ _).2 ?_⟩
    rw [(hpairs p hp).quantity_eq hzero' hq, hsame]

/-- The tap was ordered, received and billed once. -/
theorem three_way_agrees_tap :
    (matchInvoice asciiTextOps (tapExtraction 5 4).invoice tapPurchase.toRead .default).decision = .matched ∧
    ∃ r drafts, matchInvoiceThreeWay asciiTextOps (tapExtraction 5 4).invoice tapPurchase.toRead
        (buildContext tapEnv.dumps [tapReceipt] [] tapPurchase .default (Uuid.ofNat 4)).1 .default =
          some (r, drafts) ∧ r.decision = .matched ∧ r.lineAssignments.length = 1 ∧ drafts.length = 1 := by
  have hmatched : (matchInvoice asciiTextOps (tapExtraction 5 4).invoice tapPurchase.toRead .default).decision =
      .matched := by decide +kernel
  have hcount : (matchInvoice asciiTextOps (tapExtraction 5 4).invoice tapPurchase.toRead
      .default).lineAssignments.length = 1 := by decide +kernel
  have hfull : ∀ line ∈ (buildContext tapEnv.dumps [tapReceipt] [] tapPurchase .default (Uuid.ofNat 4)).1.lines,
      FullyReceived (tapExtraction 5 4).invoice line := by
    intro line hline
    obtain rfl := List.mem_singleton.1 hline
    refine ⟨by decide +kernel, ⟨1, ⟨_, rfl, ?_⟩, ⟨_, rfl, ?_⟩⟩, rfl, rfl, fun day hday r hr => ?_⟩
    · decide +kernel
    · decide +kernel
    · obtain rfl := Option.some.inj hday.2
      obtain rfl := List.mem_singleton.1 hr
      decide +kernel
  obtain ⟨r, drafts, h, hm, hpairing, -⟩ := three_way_agrees asciiTextOps tapEnv.dumps (tapExtraction 5 4).invoice
    tapPurchase [tapReceipt] [] (Uuid.ofNat 4) .default .default ⟨rfl, rfl, rfl, rfl, rfl⟩ rfl hfull hmatched
  have hlength := congrArg List.length hpairing
  rw [List.length_map, List.length_map, hcount] at hlength
  exact ⟨hmatched, r, drafts, h, hm, hlength, hlength ▸ (drafts_of_matched h hm).length_eq.symm⟩

end InvoiceOps
