import InvoiceOps.Matching.Service

/-! What one three-way decision reserves. A matched decision either stores an allocation for each of its
assignments, or finds exactly these among the allocations the document has; any other decision stores
nothing. What is stored fits the receipts the context was built from. -/

namespace InvoiceOps

/-- The allocation stands for the assignment, with the quantity of its invoice line. -/
def Reserves (invoice : Invoice) (a : LineAssignment) (row : ThreeWayAllocation) : Prop :=
  row.invoiceLineIndex = a.invoiceLineIndex ∧ row.purchaseOrderLineId = a.poLineId ∧
    ∃ l q, invoice.lineItems[a.invoiceLineIndex]? = some l ∧ l.quantity.Holds q ∧
      row.allocatedQuantity.toRat = q.toRat

/-- The rows are those of the assignments, one for each, in some order. -/
def Reserved (invoice : Invoice) (assignments : List LineAssignment) (rows : List ThreeWayAllocation) : Prop :=
  ∃ ordered, ordered.Perm rows ∧ List.Forall₂ (Reserves invoice) assignments ordered

/-- The row of a draft. -/
structure StoredAs (run : MatchRun) (d : AllocationDraft) (row : ThreeWayAllocation) : Prop where
  matchRun : row.matchRunId = run.id
  document : row.documentId = run.documentId
  order : row.purchaseOrderId = run.purchaseOrderId
  line : row.purchaseOrderLineId = d.purchaseOrderLineId
  index : row.invoiceLineIndex = d.invoiceLineIndex
  quantity : row.allocatedQuantity.toRat = d.quantity.toRat
  column : ∃ m : ℤ, |m| < 10 ^ 24 ∧ row.allocatedQuantity.toRat = m / 10 ^ 8

theorem newAllocation_spec {run : MatchRun} {id : Uuid} {d : AllocationDraft} {row : ThreeWayAllocation}
    (h : newAllocation run id d = some row) : StoredAs run d row := by
  obtain ⟨q, hq, h⟩ := Option.bind_eq_some_iff.1 h
  split_ifs at h with hpos
  obtain rfl := Option.some.inj h
  exact ⟨rfl, rfl, rfl, rfl, rfl, toRat_numericColumn hq, numericColumn_whole hq⟩

theorem newAllocations_spec {run : MatchRun} {ids : ℕ → Uuid} {drafts : List AllocationDraft}
    {rows : List ThreeWayAllocation} (h : newAllocations run ids drafts = some rows) :
    List.Forall₂ (StoredAs run) drafts rows := by
  have hrows := (Lists.mapM_eq_some_iff.1 h).imp fun _ _ => newAllocation_spec
  rw [← List.forall₂_map_left_iff, List.zipIdx_map_fst] at hrows
  exact hrows

def DraftOf (invoice : Invoice) (a : LineAssignment) (d : AllocationDraft) : Prop :=
  d.purchaseOrderLineId = a.poLineId ∧ d.invoiceLineIndex = a.invoiceLineIndex ∧
    ∃ l, invoice.lineItems[a.invoiceLineIndex]? = some l ∧ l.quantity.Holds d.quantity

section

variable {invoice : Invoice} {assignments : List LineAssignment} {drafts : List AllocationDraft}
  {run : MatchRun} {rows existing : List ThreeWayAllocation}

theorem reserves_of_draft {a : LineAssignment} {d : AllocationDraft} {row : ThreeWayAllocation}
    (hd : DraftOf invoice a d) (hindex : row.invoiceLineIndex = d.invoiceLineIndex)
    (hline : row.purchaseOrderLineId = d.purchaseOrderLineId)
    (hquantity : row.allocatedQuantity.toRat = d.quantity.toRat) : Reserves invoice a row := by
  obtain ⟨hid, hi, l, hl, hq⟩ := hd
  exact ⟨hindex.trans hi, hline.trans hid, l, d.quantity, hl, hq, hquantity⟩

theorem reserved_of_stored (hdrafts : List.Forall₂ (DraftOf invoice) assignments drafts)
    (hrows : List.Forall₂ (StoredAs run) drafts rows) : Reserved invoice assignments rows := by
  refine ⟨rows, .refl _, (Lists.forall₂_comp hdrafts hrows).imp fun a row h => ?_⟩
  obtain ⟨d, hd, hrow⟩ := h
  exact reserves_of_draft hd hrow.index hrow.line hrow.quantity

theorem proposals_of_drafts {result : MatchResult}
    (hdrafts : List.Forall₂ (DraftOf invoice) result.lineAssignments drafts) :
    proposals invoice result = drafts := by
  unfold proposals
  generalize result.lineAssignments = assignments at hdrafts
  induction hdrafts with
  | nil => rfl
  | @cons a d as ds hd _ ih =>
    obtain ⟨hid, hi, l, hl, hq⟩ := hd
    have hproposal : ((invoice.lineItems[a.invoiceLineIndex]?).bind fun line =>
        line.quantity.value.map fun q => (⟨a.poLineId, a.invoiceLineIndex, q⟩ : AllocationDraft)) = some d := by
      rw [hl, Option.bind_some, hq.2, Option.map_some, ← hid, ← hi]
    simp only [List.filterMap_cons, hproposal, ih]

theorem no_conflict (hnodup : (existing.map (·.invoiceLineIndex)).Nodup)
    (h : allocationConflict drafts existing = false) :
    (∀ d ∈ drafts, ∃ e, (e.invoiceLineIndex = d.invoiceLineIndex ∧
      e.purchaseOrderLineId = d.purchaseOrderLineId ∧ e.allocatedQuantity.toRat = d.quantity.toRat) ∧
        e ∈ existing) ∧
    ∀ e ∈ existing, ∃ d ∈ drafts, d.invoiceLineIndex = e.invoiceLineIndex := by
  simp only [allocationConflict, Bool.or_eq_false_iff, List.any_eq_false, decide_eq_true_eq, not_not] at h
  obtain ⟨⟨hleft, hright⟩, hsame⟩ := h
  refine ⟨fun d hd => ?_, fun e he => ?_⟩
  · obtain ⟨e, he, hindex⟩ := List.mem_map.1 (hleft d hd)
    have hfind : existing.reverse.find? (·.invoiceLineIndex = d.invoiceLineIndex) = some e := by
      rw [← hindex]
      exact Lists.find?_reverse_key hnodup he
    have hd := hsame d hd
    simp only [hfind, Option.any_some, Bool.or_eq_true, decide_eq_true_eq, not_or, not_not,
      Decimal.numEq_iff] at hd
    exact ⟨e, ⟨hindex, hd.1.symm, hd.2.symm⟩, he⟩
  · obtain ⟨d, hd, hindex⟩ := List.mem_map.1 (hright e he)
    exact ⟨d, hd, hindex⟩

theorem reserved_of_no_conflict (hdrafts : List.Forall₂ (DraftOf invoice) assignments drafts)
    (hindices : (assignments.map (·.invoiceLineIndex)).Nodup)
    (hnodup : (existing.map (·.invoiceLineIndex)).Nodup)
    (h : allocationConflict drafts existing = false) : Reserved invoice assignments existing := by
  obtain ⟨hstored, hproposed⟩ := no_conflict hnodup h
  obtain ⟨ordered, hordered, hmem⟩ := Lists.exists_forall₂_iff.2 hstored
  have hreserves : List.Forall₂ (Reserves invoice) assignments ordered :=
    (Lists.forall₂_comp hdrafts hordered).imp fun a row hrow => by
      obtain ⟨d, hd, hindex, hline, hquantity⟩ := hrow
      exact reserves_of_draft hd hindex hline hquantity
  have hindex : assignments.map (·.invoiceLineIndex) = ordered.map (·.invoiceLineIndex) :=
    Lists.map_eq_map_of_forall₂ (hreserves.imp fun _ _ hrow => hrow.1.symm)
  have hdraft : drafts.map (·.invoiceLineIndex) = ordered.map (·.invoiceLineIndex) :=
    Lists.map_eq_map_of_forall₂ (hordered.imp fun _ _ hrow => hrow.1.symm)
  refine ⟨ordered, (List.perm_ext_iff_of_nodup (.of_map _ (hindex ▸ hindices)) (.of_map _ hnodup)).2 fun e => ?_,
    hreserves⟩
  refine ⟨hmem e, fun he => ?_⟩
  obtain ⟨d, hd, hde⟩ := hproposed e he
  obtain ⟨row, hrow, hrowd⟩ := List.mem_map.1 (hdraft ▸ List.mem_map_of_mem hd)
  rwa [List.inj_on_of_nodup_map hnodup he (hmem row hrow) (hde.symm.trans hrowd.symm)]

end

section

variable {E : MatchingEnv} {c : MatchCall} {x : ExtractionRun} {receipts : List GoodsReceipt}
  {allocations rows : List ThreeWayAllocation} {found : MatchResult × List AllocationDraft}

/-- A three-way decision is that of the engine, unless it contradicts the allocations the document has.
Its drafts are kept when there are none of them. -/
theorem decision_cases {existing : List ThreeWayAllocation}
    (h : E.decision c x (some (E.build c receipts allocations)) existing = some found) :
    ∃ r drafts, @matchInvoiceThreeWay E.decimals E.text x.invoice c.purchaseOrder.toRead
        (@snapshotOf receipts allocations E.decimals c.purchaseOrder E.threeWayPolicy c.documentId)
        E.threeWayPolicy = some (r, drafts) ∧
      ((existing = [] ∧ found = (r, drafts)) ∨
        (existing ≠ [] ∧ found = (r.reconcile, [])) ∨
        (existing ≠ [] ∧ allocationConflict (proposals x.invoice r) existing = false ∧ found = (r, []))) := by
  obtain ⟨⟨r, drafts⟩, hengine, rfl⟩ := Option.map_eq_some_iff.1 h
  refine ⟨r, drafts, hengine, ?_⟩
  unfold reconcileAllocations
  split_ifs with hnil hconflict
  · exact .inl ⟨hnil, rfl⟩
  · exact .inr (.inl ⟨hnil, rfl⟩)
  · exact .inr (.inr ⟨hnil, by simpa using hconflict, rfl⟩)

variable {ids : ℕ → Uuid} {run : MatchRun}

/-- A matched decision leaves the document with the allocations of its assignments, and with one at least. -/
theorem reserved_of_decision {existing : List ThreeWayAllocation}
    (h : E.decision c x (some (E.build c receipts allocations)) existing = some found)
    (hm : found.1.decision = .matched) (hnodup : (existing.map (·.invoiceLineIndex)).Nodup)
    (hrows : newAllocations run ids found.2 = some rows) :
    Reserved x.invoice found.1.lineAssignments (existing ++ rows) ∧ existing ++ rows ≠ [] := by
  let _ : DecimalContext := E.decimals
  obtain ⟨r, drafts, hengine, ⟨rfl, rfl⟩ | ⟨-, rfl⟩ | ⟨hne, hconflict, rfl⟩⟩ := decision_cases h
  · have hdrafts := drafts_of_matched hengine hm
    have hstored := newAllocations_spec hrows
    refine ⟨reserved_of_stored hdrafts hstored, fun hnil => ?_⟩
    obtain rfl : rows = [] := hnil
    obtain rfl := List.forall₂_nil_right_iff.1 hstored
    exact lineAssignments_ne_nil c.purchaseOrder.line_ids hengine hm (List.forall₂_nil_right_iff.1 hdrafts)
  · cases hm
  · obtain rfl : rows = [] := List.forall₂_nil_left_iff.1 (newAllocations_spec hrows)
    have hdrafts := drafts_of_matched hengine hm
    rw [proposals_of_drafts hdrafts] at hconflict
    rw [List.append_nil]
    exact ⟨reserved_of_no_conflict hdrafts (nodup_invoiceLineIndex (represents_threeWay hengine)) hnodup hconflict,
      hne⟩

/-- Drafts are left only to a matched document without allocations, and then they are the engine's. -/
theorem drafts_of_decision {existing : List ThreeWayAllocation}
    (h : E.decision c x (some (E.build c receipts allocations)) existing = some found) (hne : found.2 ≠ []) :
    existing = [] ∧ found.1.decision = .matched ∧
      @matchInvoiceThreeWay E.decimals E.text x.invoice c.purchaseOrder.toRead
        (@snapshotOf receipts allocations E.decimals c.purchaseOrder E.threeWayPolicy c.documentId)
        E.threeWayPolicy = some found := by
  let _ : DecimalContext := E.decimals
  obtain ⟨r, drafts, hengine, ⟨hnil, rfl⟩ | ⟨-, rfl⟩ | ⟨-, -, rfl⟩⟩ := decision_cases h
  · refine ⟨hnil, ?_, hengine⟩
    cases hd : r.decision with
    | matched => rfl
    | needsReview => exact absurd (drafts_of_needsReview hengine hd) hne
  · exact absurd rfl hne
  · exact absurd rfl hne

theorem allocatedQuantity_append (as bs : List ThreeWayAllocation) (poLineId : Uuid) :
    allocatedQuantity (as ++ bs) poLineId = allocatedQuantity as poLineId + allocatedQuantity bs poLineId := by
  simp [allocatedQuantity]

theorem allocatedQuantity_eq_zero {as : List ThreeWayAllocation} {poLineId : Uuid}
    (h : poLineId ∉ as.map (·.purchaseOrderLineId)) : allocatedQuantity as poLineId = 0 := by
  have hnil : as.filter (·.purchaseOrderLineId = poLineId) = [] := by
    refine List.filter_eq_nil_iff.2 fun a ha hid => h ?_
    exact List.mem_map.2 ⟨a, ha, by simpa using hid⟩
  simp [allocatedQuantity, hnil]

theorem allocatedQuantity_of_nodup {as : List ThreeWayAllocation} (hnodup : (as.map (·.purchaseOrderLineId)).Nodup)
    {a : ThreeWayAllocation} (ha : a ∈ as) :
    allocatedQuantity as a.purchaseOrderLineId = a.allocatedQuantity.toRat := by
  obtain ⟨before, after, rfl⟩ := List.append_of_mem ha
  have hrest : a.purchaseOrderLineId ∉ (before ++ after).map (·.purchaseOrderLineId) := by
    rw [List.map_append, List.map_cons, List.nodup_middle, ← List.map_append] at hnodup
    exact (List.nodup_cons.1 hnodup).1
  rw [allocatedQuantity_perm List.perm_middle, ← List.singleton_append, allocatedQuantity_append,
    allocatedQuantity_eq_zero hrest, add_zero]
  simp [allocatedQuantity]

theorem activeQuantity_le_of_prefix {receipts receipts' : List GoodsReceipt} (h : receipts <+: receipts')
    (poLineId : Uuid) : activeQuantity receipts poLineId ≤ activeQuantity receipts' poLineId := by
  obtain ⟨more, rfl⟩ := h
  unfold activeQuantity
  rw [List.filter_append, List.map_append, List.sum_append]
  refine le_add_of_nonneg_right (List.sum_nonneg fun q hq => ?_)
  obtain ⟨r, -, rfl⟩ := List.mem_map.1 hq
  exact r.quantityOn_nonneg poLineId

theorem priorAllocations_eq_self {documentId : Uuid} (h : currentAllocations allocations documentId = []) :
    priorAllocations allocations documentId = allocations := by
  refine List.filter_eq_self.2 fun a ha => ?_
  simpa using List.filter_eq_nil_iff.1 h a ha

/-- A value of a `Numeric(24, 8)` column, where the decimals are rounded at all. -/
def MatchingEnv.Column (E : MatchingEnv) (x : ℚ) : Prop := @DecimalContext.Scaled E.decimals (10 ^ 24) x

/-- A stored row has a purchase-order line of its own, and its quantity is what the engine found backed there. -/
theorem backed_of_decision {existing : List ThreeWayAllocation}
    (h : E.decision c x (some (E.build c receipts allocations)) existing = some found)
    (hrows : newAllocations run ids found.2 = some rows) {row : ThreeWayAllocation} (hrow : row ∈ rows) :
    existing = [] ∧ (rows.map (·.purchaseOrderLineId)).Nodup ∧
      ∃ l line q u t, line ∈ c.purchaseOrder.lines ∧ line.id = row.purchaseOrderLineId ∧
        @LineBacked E.decimals receipts allocations c.documentId x.invoice.invoiceDate E.threeWayPolicy l line q u t ∧
        row.allocatedQuantity.toRat = q.toRat := by
  let _ : DecimalContext := E.decimals
  have hstored := newAllocations_spec hrows
  obtain ⟨d, hd, -⟩ := Lists.exists_of_forall₂_mem hstored hrow
  obtain ⟨hnil, hm, hengine⟩ := drafts_of_decision h (List.ne_nil_of_mem hd)
  obtain ⟨ordered, hperm, hreserves⟩ := reserved_of_stored (drafts_of_matched hengine hm) hstored
  obtain ⟨a, ha, -, hid, l, q, hl, hq, hquantity⟩ := Lists.exists_of_forall₂_mem hreserves (hperm.mem_iff.2 hrow)
  obtain ⟨-, hbacked⟩ := backed_of_matched hengine hm
  obtain ⟨l', line, hl', hline, hlid, q', u, t, hok⟩ := hbacked a ha
  obtain rfl : l = l' := Option.some.inj (hl.symm.trans hl')
  obtain rfl : q = q' := Option.some.inj (hq.2.symm.trans hok.quantityHolds.2)
  refine ⟨hnil, ?_, l, line, q, u, t, hline, hlid.trans hid.symm, hok, hquantity⟩
  have hmap : found.1.lineAssignments.map (·.poLineId) = ordered.map (·.purchaseOrderLineId) :=
    Lists.map_eq_map_of_forall₂ (hreserves.imp fun _ _ hr => hr.2.1.symm)
  rw [← (hperm.map _).nodup_iff, ← hmap]
  exact nodup_poLineId c.purchaseOrder.line_ids (represents_threeWay hengine)

/-- Every line a decision allocates stays within what was received for it, up to the tolerance, and
what was received within what was ordered. -/
theorem allocated_le_of_decision (ht : E.Column E.threeWayPolicy.quantityAbsolute.toRat)
    (hordered : ∀ line ∈ c.purchaseOrder.lines, E.Column line.orderedQuantity.toRat)
    (hreceipts : ∀ r ∈ receipts, ∀ l ∈ r.lines, E.Column l.acceptedQuantity.toRat)
    (hallocations : ∀ a ∈ allocations, E.Column a.allocatedQuantity.toRat)
    (hbound : ∀ line ∈ c.purchaseOrder.lines, allocatedQuantity allocations line.id ≤
      line.orderedQuantity.toRat + 2 * E.threeWayPolicy.quantityAbsolute.toRat)
    (h : E.decision c x (some (E.build c receipts allocations)) (currentAllocations allocations c.documentId) =
      some found)
    (hrows : newAllocations run ids found.2 = some rows) {row : ThreeWayAllocation} (hrow : row ∈ rows) :
    ∃ line ∈ c.purchaseOrder.lines, line.id = row.purchaseOrderLineId ∧
      allocatedQuantity (allocations ++ rows) line.id ≤
        activeQuantity receipts line.id + E.threeWayPolicy.quantityAbsolute.toRat ∧
      activeQuantity receipts line.id ≤ line.orderedQuantity.toRat + E.threeWayPolicy.quantityAbsolute.toRat := by
  let _ : DecimalContext := E.decimals
  obtain ⟨hnil, hlines, l, line, q, u, t, hline, hid, hok, hquantity⟩ := backed_of_decision h hrows hrow
  have hprior := hbound line hline
  rw [← priorAllocations_eq_self hnil] at hprior
  obtain ⟨hover, hexact⟩ :=
    quantities_exact (hordered line hline) ht hreceipts hallocations hok.notOver hprior
  refine ⟨line, hline, hid, ?_, hover⟩
  have havailable := hok.available
  rw [hexact, priorAllocations_eq_self hnil] at havailable
  rw [allocatedQuantity_append, hid, allocatedQuantity_of_nodup hlines hrow, hquantity, ← hid]
  linarith

end

end InvoiceOps
