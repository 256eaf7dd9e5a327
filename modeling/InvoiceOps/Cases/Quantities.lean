import InvoiceOps.Cases.Readiness

/-! What a three-way match of a case counts as received. The context of the match sums the receipts of the
purchase order and knows nothing of attachments, so that a receipt goes on counting when the attachment it was
confirmed from is superseded. -/

namespace InvoiceOps

open StateMachine

section

variable {receipts receipts' : List GoodsReceipt} {line : Uuid}

theorem activeQuantity_perm (h : receipts.Perm receipts') : activeQuantity receipts line = activeQuantity receipts' line :=
  ((h.filter _).map _).sum_eq

theorem activeQuantity_append :
    activeQuantity (receipts ++ receipts') line = activeQuantity receipts line + activeQuantity receipts' line := by
  simp [activeQuantity, List.filter_append]

theorem activeQuantity_filter (receipts : List GoodsReceipt) (line : Uuid) (p : GoodsReceipt → Bool) :
    activeQuantity receipts line =
      activeQuantity (receipts.filter p) line + activeQuantity (receipts.filter fun r => !p r) line := by
  rw [← activeQuantity_append]
  exact activeQuantity_perm (List.filter_append_perm p receipts).symm

theorem sum_activeQuantity {ids : List Uuid} (hnodup : ids.Nodup) :
    (ids.map fun id => activeQuantity (receipts.filter (·.id = id)) line).sum =
      activeQuantity (receipts.filter (·.id ∈ ids)) line := by
  induction ids with
  | nil => simp [activeQuantity]
  | cons id ids ih =>
    obtain ⟨hfresh, hnodup⟩ := List.nodup_cons.1 hnodup
    rw [List.map_cons, List.sum_cons, ih hnodup,
      activeQuantity_filter (receipts.filter (·.id ∈ id :: ids)) line (·.id = id), List.filter_filter,
      List.filter_filter]
    congr 2
    · refine List.filter_congr fun r _ => ?_
      by_cases hr : r.id = id
      · simp [hr]
      · simp [hr]
    · refine List.filter_congr fun r _ => ?_
      by_cases hr : r.id = id
      · simp [hr, hfresh]
      · simp [hr]

theorem activeQuantity_eq_zero (h : ∀ r ∈ receipts, r.reversal ≠ none) : activeQuantity receipts line = 0 := by
  have hnil : receipts.filter (·.reversal.isNone) = [] := by
    refine List.filter_eq_nil_iff.2 fun r hr hnone => h r hr ?_
    exact Option.isNone_iff_eq_none.1 hnone
  rw [activeQuantity, hnil]
  rfl

theorem activeQuantity_pos {r : GoodsReceipt} (hr : r ∈ receipts) (hactive : r.reversal = none)
    (hcovers : r.Covers line) : 0 < activeQuantity receipts line := by
  have hmem : r.quantityOn line ∈ (receipts.filter (·.reversal.isNone)).map (·.quantityOn line) :=
    List.mem_map_of_mem (List.mem_filter.2 ⟨hr, by simp [hactive]⟩)
  have hpos : 0 < r.quantityOn line := by
    obtain ⟨l, hl⟩ := Option.isSome_iff_exists.1 (covers_iff.1 hcovers)
    simp only [GoodsReceipt.quantityOn, hl, Option.map_some, Option.getD_some]
    exact l.positive
  refine hpos.trans_le (List.single_le_sum (fun q hq => ?_) _ hmem)
  obtain ⟨r', -, rfl⟩ := List.mem_map.1 hq
  exact r'.quantityOn_nonneg line

end

section

variable (s : CaseStore) (db : Tables) (p line : Uuid)

/-- The receipts that confirmations of the case have made. -/
def CaseStore.madeReceipts : List Uuid :=
  (s.confirmations.filter (·.canonicalRecordType = .goodsReceipt)).map (·.canonicalRecordId)

/-- Those of attachments that have been superseded since. -/
def CaseStore.supersededReceipts : List Uuid :=
  (s.confirmations.filter fun c => c.canonicalRecordType = .goodsReceipt ∧ s.hasSuccessor c.caseDocumentId = true).map
    (·.canonicalRecordId)

/-- What the active confirmations add to a line of the purchase order: their receipts on it, unless reversed. -/
def CaseStore.confirmedQuantity : ℚ :=
  (s.receiptConfirmations.map fun c => activeQuantity ((db.receiptsOf p).filter (·.id = c.canonicalRecordId)) line).sum

/-- What the receipts of the purchase order add that do not come from the case. -/
def CaseStore.otherQuantity : ℚ := activeQuantity ((db.receiptsOf p).filter (·.id ∉ s.madeReceipts)) line

end

/-- Every confirmation has made a receipt of its own. -/
structure RecordsInv (w : CaseWorld) : Prop where
  rows : CaseOk w.store
  made : ∀ id ∈ w.store.madeReceipts, id ∈ w.world.db.receipts.map (·.id)
  distinct : w.store.madeReceipts.Nodup

section

variable {E : CaseEnv} {w w' : CaseWorld} {a : CaseAct} {s s' : CaseStore}

theorem madeReceipts_order {c : CaseConfirmation} (h : Confirmed s c s') (htype : c.canonicalRecordType = .purchaseOrder) :
    s'.madeReceipts = s.madeReceipts := by
  rw [h.store]
  simp [CaseStore.madeReceipts, List.filter_append, htype]

theorem madeReceipts_receipt {c : CaseConfirmation} (h : Confirmed s c s') (htype : c.canonicalRecordType = .goodsReceipt) :
    s'.madeReceipts = s.madeReceipts ++ [c.canonicalRecordId] := by
  rw [h.store]
  simp [CaseStore.madeReceipts, List.filter_append, htype]

theorem madeReceipts_congr (h : s'.confirmations = s.confirmations) : s'.madeReceipts = s.madeReceipts := by
  rw [CaseStore.madeReceipts, h]
  rfl

theorem KeepsRecords.ids {db db' : Tables} (h : KeepsRecords db db') : ∀ id ∈ db.receipts.map (·.id),
    id ∈ db'.receipts.map (·.id) := by
  intro id hid
  obtain ⟨r, hr, rfl⟩ := List.mem_map.1 hid
  obtain ⟨r', hr', hid', -⟩ := h.receipts r hr
  exact List.mem_map.2 ⟨r', hr', hid'⟩

theorem RecordsInv.step (h : RecordsInv w) (hstep : CaseMoves E w a w') : RecordsInv w' := by
  have hrows := h.rows.step hstep
  have hkeeps := (keepsRecords_of_caseMoves hstep).ids
  have hsame : w'.store.madeReceipts = w.store.madeReceipts → RecordsInv w' := by
    intro heq
    exact ⟨hrows, fun id hid => hkeeps id (h.made id (heq ▸ hid)), heq ▸ h.distinct⟩
  cases hstep with
  | service => exact hsame rfl
  | rows _ hconfirmations => exact hsame (madeReceipts_congr hconfirmations)
  | attach hattached => exact hsame (madeReceipts_congr hattached.rest.1)
  | order _ _ _ htype _ hconfirmed _ => exact hsame (madeReceipts_order hconfirmed htype)
  | receipt _ _ _ _ htype hrecord _ _ _ haccepts hconfirmed hworld =>
    have hmade := madeReceipts_receipt hconfirmed htype
    refine ⟨hrows, fun id hid => ?_, ?_⟩
    · rw [hmade] at hid
      rcases List.mem_append.1 hid with hold | hnew
      · exact hkeeps id (h.made id hold)
      · rw [List.mem_singleton.1 hnew, hrecord]
        exact List.mem_map_of_mem (mem_receipts_of_confirm hworld)
    · rw [hmade, ← List.concat_eq_append]
      refine h.distinct.concat fun hmem => ?_
      exact haccepts.2.2.1 (hrecord ▸ h.made _ hmem)
  | matched _ _ _ _ hfinish =>
    obtain ⟨-, status, -, rfl⟩ := finishMatch_ok hfinish
    exact hsame rfl

theorem receiptConfirmations_ids (h : s.madeReceipts.Nodup) :
    (s.receiptConfirmations.map (·.canonicalRecordId)).Nodup ∧
      ∀ id ∈ s.receiptConfirmations.map (·.canonicalRecordId), id ∈ s.madeReceipts := by
  have hperm := List.perm_insertionSort (fun c c' : CaseConfirmation =>
    c.createdAt < c'.createdAt ∨ c.createdAt = c'.createdAt ∧ c.id.str ≤ c'.id.str)
    (s.confirmations.filter fun c => c.canonicalRecordType = .goodsReceipt ∧
      ∃ d ∈ s.documents, d.id = c.caseDocumentId ∧ s.activeReceipt d = true)
  constructor
  · refine (hperm.map _).nodup_iff.2 (h.sublist (List.Sublist.map _ ?_))
    refine List.monotone_filter_right _ fun c hc => ?_
    have hboth := of_decide_eq_true hc
    exact decide_eq_true hboth.1
  · intro id hid
    obtain ⟨c, hc, rfl⟩ := List.mem_map.1 hid
    obtain ⟨hmem, htype, -⟩ := mem_receiptConfirmations.1 hc
    exact List.mem_map_of_mem (List.mem_filter.2 ⟨hmem, decide_eq_true htype⟩)

/-- A receipt of the case is one of an active confirmation or one of a superseded attachment. -/
theorem mem_superseded_iff (hok : CaseOk s) (h : s.madeReceipts.Nodup) {id : Uuid} :
    id ∈ s.supersededReceipts ↔
      id ∈ s.madeReceipts ∧ id ∉ s.receiptConfirmations.map (·.canonicalRecordId) := by
  constructor
  · intro hid
    obtain ⟨c, hc, rfl⟩ := List.mem_map.1 hid
    obtain ⟨hmem, hc⟩ := List.mem_filter.1 hc
    obtain ⟨htype, hsuccessor⟩ := of_decide_eq_true hc
    have hmade : ∀ c' ∈ s.confirmations, c'.canonicalRecordType = .goodsReceipt →
        c' ∈ s.confirmations.filter (·.canonicalRecordType = .goodsReceipt) :=
      fun c' hc' htype' => List.mem_filter.2 ⟨hc', decide_eq_true htype'⟩
    refine ⟨List.mem_map_of_mem (hmade c hmem htype), fun hactive => ?_⟩
    obtain ⟨c', hc', hrecord⟩ := List.mem_map.1 hactive
    obtain ⟨hmem', htype', d, -, hdid, hd⟩ := mem_receiptConfirmations.1 hc'
    obtain rfl : c' = c := List.inj_on_of_nodup_map h (hmade c' hmem' htype') (hmade c hmem htype) hrecord
    rw [CaseStore.activeReceipt, hdid, hsuccessor] at hd
    simp at hd
  · rintro ⟨hid, hactive⟩
    obtain ⟨c, hc, rfl⟩ := List.mem_map.1 hid
    obtain ⟨hmem, htype⟩ := List.mem_filter.1 hc
    have htype := of_decide_eq_true htype
    obtain ⟨d, hd, hdid, hrole⟩ := hok.refers c hmem
    have hsuccessor : s.hasSuccessor c.caseDocumentId = true := by
      by_contra hnone
      refine hactive (List.mem_map_of_mem (mem_receiptConfirmations.2 ⟨hmem, htype, d, hd, hdid, ?_⟩))
      rw [CaseStore.activeReceipt, hrole.1 htype, hdid]
      simpa using hnone
    exact List.mem_map_of_mem (List.mem_filter.2 ⟨hmem, decide_eq_true ⟨htype, hsuccessor⟩⟩)

theorem received_eq (hok : CaseOk s) (h : s.madeReceipts.Nodup) (db : Tables) (p line : Uuid) :
    activeQuantity (db.receiptsOf p) line = s.confirmedQuantity db p line + s.otherQuantity db p line +
      activeQuantity ((db.receiptsOf p).filter (·.id ∈ s.supersededReceipts)) line := by
  obtain ⟨hnodup, hsubset⟩ := receiptConfirmations_ids h
  have hactive : s.confirmedQuantity db p line = activeQuantity
      ((db.receiptsOf p).filter (·.id ∈ s.receiptConfirmations.map (·.canonicalRecordId))) line := by
    rw [← sum_activeQuantity hnodup, List.map_map]
    rfl
  have hmade : activeQuantity ((db.receiptsOf p).filter (·.id ∈ s.madeReceipts)) line =
      s.confirmedQuantity db p line + activeQuantity ((db.receiptsOf p).filter (·.id ∈ s.supersededReceipts)) line := by
    rw [activeQuantity_filter ((db.receiptsOf p).filter (·.id ∈ s.madeReceipts)) line
      (·.id ∈ s.receiptConfirmations.map (·.canonicalRecordId)), List.filter_filter, List.filter_filter, hactive]
    congr 2
    · refine List.filter_congr fun r _ => ?_
      have hr := hsubset r.id
      simpa using hr
    · refine List.filter_congr fun r _ => ?_
      have hr : r.id ∈ s.supersededReceipts ↔ _ := mem_superseded_iff hok h
      by_cases hmem : r.id ∈ s.receiptConfirmations.map (·.canonicalRecordId)
      · simp [hmem, hr]
      · simp [hmem, hr]
  have hall := activeQuantity_filter (db.receiptsOf p) line (·.id ∈ s.madeReceipts)
  have hother : activeQuantity ((db.receiptsOf p).filter fun r => !decide (r.id ∈ s.madeReceipts)) line =
      s.otherQuantity db p line := by
    simp only [CaseStore.otherQuantity, decide_not]
  rw [hall, hmade, hother]
  ring

end

theorem recordsInv_initial : RecordsInv .initial :=
  ⟨caseOk_created, fun _ hid => (List.not_mem_nil hid).elim, .nil⟩

/-- The context of a three-way match counts what the active confirmations and the receipts from elsewhere add. -/
def CaseWorld.CountsActive (E : CaseEnv) (w : CaseWorld) (context : CaseContext) (po : PurchaseOrder) : Prop :=
  ∀ l ∈ (w.world.db.contextOf E.matching ⟨context.invoiceDocumentId, po, .threeWay⟩).snapshot.lines,
    TextValue l.effectiveReceivedQuantity (w.store.confirmedQuantity w.world.db po.id l.purchaseOrderLineId +
      w.store.otherQuantity w.world.db po.id l.purchaseOrderLineId)

/-- Where the decimals are rounded at all: the accepted quantities are values of their column, and on no line of the
purchase order do they add up to more digits than are kept. -/
structure ReceiptsFit (E : MatchingEnv) (receipts : List GoodsReceipt) (po : PurchaseOrder) : Prop where
  accepted : ∀ r ∈ receipts, ∀ l ∈ r.lines, E.Column l.acceptedQuantity.toRat
  received : ∀ line ∈ po.lines, @DecimalContext.Scaled E.decimals (10 ^ 28) (activeQuantity receipts line.id)

section

variable {E : CaseEnv} {w : CaseWorld}

theorem countsActive_iff (hok : RecordsInv w) (hlines : LinesOk w.world.db)
    (hids : (w.world.db.purchaseOrders.map (·.id)).Nodup) {context : CaseContext} {po : PurchaseOrder}
    (hpo : po ∈ w.world.db.purchaseOrders) (hfit : ReceiptsFit E.matching (w.world.db.receiptsOf po.id) po) :
    w.CountsActive E context po ↔
      ∀ r ∈ w.world.db.receiptsOf po.id, r.id ∈ w.store.supersededReceipts → r.reversal ≠ none := by
  let _ : DecimalContext := E.matching.decimals
  have hline : ∀ line ∈ po.lines, TextValue (lineContext (w.world.db.receiptsOf po.id) (w.world.db.allocationsOf po.id)
      context.invoiceDocumentId line).effectiveReceivedQuantity (w.store.confirmedQuantity w.world.db po.id line.id +
        w.store.otherQuantity w.world.db po.id line.id +
        activeQuantity ((w.world.db.receiptsOf po.id).filter (·.id ∈ w.store.supersededReceipts)) line.id) := by
    intro line hmem
    rw [← received_eq hok.rows hok.distinct,
      ← receivedQuantity_eq (hfit.received line hmem) le_rfl hfit.accepted (.inr le_rfl)]
    exact (lineContext_spec context.invoiceDocumentId line).received
  constructor
  · intro h r hr hsuperseded hactive
    obtain ⟨line, hmem, hcovers⟩ := hlines.covers hids hpo r hr
    have heq := textValue_unique (hline line hmem) (h _ (List.mem_map_of_mem hmem))
    have hr' : r ∈ (w.world.db.receiptsOf po.id).filter (·.id ∈ w.store.supersededReceipts) :=
      List.mem_filter.2 ⟨hr, decide_eq_true hsuperseded⟩
    have hpos := activeQuantity_pos hr' hactive hcovers
    exact hpos.ne' (add_eq_left.1 heq)
  · intro h l hl
    obtain ⟨line, hmem, rfl⟩ := List.mem_map.1 hl
    have hzero : activeQuantity ((w.world.db.receiptsOf po.id).filter (·.id ∈ w.store.supersededReceipts)) line.id = 0 := by
      refine activeQuantity_eq_zero fun r hr => ?_
      obtain ⟨hread, hsuperseded⟩ := List.mem_filter.1 hr
      exact h r hread (of_decide_eq_true hsuperseded)
    have htext := hline line hmem
    rw [hzero, add_zero] at htext
    exact htext

end

/-- A match that makes a new three-way run stores the context of the tables with it. -/
theorem Called.context {E : MatchingEnv} {db : Tables} {fresh : FreshIds} {c : MatchCall} {x : ExtractionRun}
    {r : MatchServiceResult} (h : Called E db fresh c x r) (hmode : c.mode = .threeWay) (hcreated : r.created = true) :
    ∃ y ∈ r.tables.contexts, y.matchRunId = r.run.id ∧ y.snapshot = (db.contextOf E c).snapshot := by
  cases h with
  | found _ hreplay =>
    rw [(replay_cases hreplay).2.1] at hcreated
    cases hcreated
  | @created found allocations risk run =>
    refine ⟨contextRow run (db.contextOf E c), List.mem_append_right _ ?_, rfl, rfl⟩
    simp [MatchingEnv.runRows, contextFor_threeWay hmode]

/-- In every state the commands on a case lead to, whatever context the case is matched with three-way: the match
counts on each line what the active confirmations of the case and the receipts from elsewhere add, if and only if
each receipt of the purchase order that was confirmed from a superseded attachment has been reversed, as long as the
quantities add up without rounding. A new run stores these quantities. -/
theorem receipts_counted_iff (E : CaseEnv) {acts : List CaseAct} {w : CaseWorld}
    (h : Steps (CaseWorld.next E) .initial acts w) {context : CaseContext} (hmode : context.matchingMode = .threeWay)
    {fresh : FreshIds} {r : MatchServiceResult} (hcall : E.callMatch w.world.db fresh context = .ok r) :
    ∃ po, w.world.db.purchaseOrder context.purchaseOrderId = some po ∧
      (r.created = true → ∃ x ∈ r.tables.contexts, x.matchRunId = r.run.id ∧
        x.snapshot = (w.world.db.contextOf E.matching ⟨context.invoiceDocumentId, po, .threeWay⟩).snapshot) ∧
      (ReceiptsFit E.matching (w.world.db.receiptsOf po.id) po → (w.CountsActive E context po ↔
        ∀ r ∈ w.world.db.receiptsOf po.id, r.id ∈ w.store.supersededReceipts → r.reversal ≠ none)) := by
  have hok : RecordsInv w :=
    h.invariant (fun _ _ _ hs hn => hs.step (caseMoves_of_next hn)) recordsInv_initial
  obtain ⟨acts', hservice⟩ := service_of_steps h
  obtain ⟨-, hinv, -⟩ := replayInv_of_service hservice
  obtain ⟨po, x, hpo, -, hcalled⟩ := called_of_callMatch hcall
  rw [hmode] at hcalled
  exact ⟨po, hpo, hcalled.context rfl,
    countsActive_iff hok hinv.lines hinv.allocation.tables.orderIds (Tables.mem_purchaseOrders hpo).1⟩

/-- The call of a match of the case, and what it returns. -/
def CaseWorld.called (E : CaseEnv) (w : CaseWorld) (c : CaseMatchCommand) (fresh : FreshIds) :
    Option (CaseContext × MatchServiceResult) :=
  match w.store.planMatch E w.world.db c with
  | .ok (.call context) => (E.callMatch w.world.db fresh context).toOption.map fun r => (context, r)
  | _ => none

theorem called_eq_some {E : CaseEnv} {w : CaseWorld} {c : CaseMatchCommand} {fresh : FreshIds} {context : CaseContext}
    {r : MatchServiceResult} (h : w.called E c fresh = some (context, r)) :
    w.store.planMatch E w.world.db c = .ok (.call context) ∧ E.callMatch w.world.db fresh context = .ok r := by
  unfold CaseWorld.called at h
  split at h
  · next context' hplan =>
    obtain ⟨r', hr', heq⟩ := Option.map_eq_some_iff.1 h
    obtain ⟨rfl, rfl⟩ := Prod.mk.inj heq
    exact ⟨hplan, eq_ok_of_toOption hr'⟩
  · cases h

theorem receipts_counted_iff_tap : ∃ w context r po, Steps (CaseWorld.next tapCaseEnv) .initial tapCaseActs w ∧
    w.store.planMatch tapCaseEnv w.world.db ⟨9, "match"⟩ = .ok (.call context) ∧ context.matchingMode = .threeWay ∧
    tapCaseEnv.callMatch w.world.db (tapFresh 20) context = .ok r ∧ r.created = true ∧
    w.world.db.purchaseOrder context.purchaseOrderId = some po ∧
    ReceiptsFit tapEnv (w.world.db.receiptsOf po.id) po ∧ w.CountsActive tapCaseEnv context po := by
  have hexec : (exec (CaseWorld.next tapCaseEnv) .initial tapCaseActs).any (fun w =>
      w.store.supersededReceipts.isEmpty &&
      (w.world.db.receipts.all fun r => r.lines.all fun l => decide (l.acceptedQuantity.toRat = 1)) &&
      (w.world.db.purchaseOrders.all fun po => po.lines.all fun l =>
        decide (activeQuantity (w.world.db.receiptsOf po.id) l.id = 1)) &&
      (w.called tapCaseEnv ⟨9, "match"⟩ (tapFresh 20)).any fun found =>
        decide (found.1.matchingMode = .threeWay) && found.2.created) = true := by
    decide +kernel
  obtain ⟨w, hw, hexec⟩ := (Option.any_eq_true _ _).1 hexec
  simp only [Bool.and_eq_true, List.all_eq_true, decide_eq_true_eq] at hexec
  obtain ⟨⟨⟨hnone, haccepted⟩, hreceived⟩, hexec⟩ := hexec
  obtain ⟨⟨context, r⟩, hcalled, hexec⟩ := (Option.any_eq_true _ _).1 hexec
  obtain ⟨hmode, hcreated⟩ := Bool.and_eq_true_iff.1 hexec
  obtain ⟨hplan, hcall⟩ := called_eq_some hcalled
  obtain ⟨po, hpo, -, hiff⟩ := receipts_counted_iff tapCaseEnv (.of_exec hw) (of_decide_eq_true hmode) hcall
  have hfit : ReceiptsFit tapEnv (w.world.db.receiptsOf po.id) po := by
    refine ⟨fun r hr l hl => column_one (haccepted r (List.mem_filter.1 hr).1 l hl), fun line hline => ?_⟩
    rw [hreceived po (Tables.mem_purchaseOrders hpo).1 line hline]
    have hone : (⟨false, 1, 0⟩ : Decimal).toRat = 1 := by norm_num [Decimal.toRat, Decimal.int]
    let _ : DecimalContext := tapEnv.decimals
    exact hone ▸ (column_one hone).mono (by norm_num)
  refine ⟨w, context, r, po, .of_exec hw, hplan, of_decide_eq_true hmode, hcall, hcreated, hpo, hfit, (hiff hfit).2 ?_⟩
  intro receipt _ hsuperseded
  rw [List.isEmpty_iff.1 hnone] at hsuperseded
  cases hsuperseded

/-- The receipt is replaced by another one. -/
def replacedReceiptActs : List CaseAct := tapCaseActs ++ receiptActs 300 9 (some 200)

/-- Both receipts count: two taps where one has arrived. -/
theorem replaced_receipt_counted : ∃ w context r po,
    Steps (CaseWorld.next tapCaseEnv) .initial replacedReceiptActs w ∧
    w.store.planMatch tapCaseEnv w.world.db ⟨12, "match"⟩ = .ok (.call context) ∧ context.matchingMode = .threeWay ∧
    tapCaseEnv.callMatch w.world.db (tapFresh 20) context = .ok r ∧ r.created = true ∧
    w.world.db.purchaseOrder context.purchaseOrderId = some po ∧ ¬ w.CountsActive tapCaseEnv context po := by
  have hexec : (exec (CaseWorld.next tapCaseEnv) .initial replacedReceiptActs).any (fun w =>
      (w.called tapCaseEnv ⟨12, "match"⟩ (tapFresh 20)).any fun found =>
        decide (found.1.matchingMode = .threeWay) && found.2.created &&
        (w.world.db.purchaseOrder found.1.purchaseOrderId).any fun po =>
          (w.world.db.contextOf tapEnv ⟨found.1.invoiceDocumentId, po, .threeWay⟩).snapshot.lines.any fun l =>
            decide (l.effectiveReceivedQuantity = "2" ∧
              w.store.confirmedQuantity w.world.db po.id l.purchaseOrderLineId +
                w.store.otherQuantity w.world.db po.id l.purchaseOrderLineId = 1)) = true := by
    decide +kernel
  obtain ⟨w, hw, hexec⟩ := (Option.any_eq_true _ _).1 hexec
  obtain ⟨⟨context, r⟩, hcalled, hexec⟩ := (Option.any_eq_true _ _).1 hexec
  obtain ⟨hexec, hpo⟩ := Bool.and_eq_true_iff.1 hexec
  obtain ⟨hmode, hcreated⟩ := Bool.and_eq_true_iff.1 hexec
  obtain ⟨po, hpo, hexec⟩ := (Option.any_eq_true _ _).1 hpo
  obtain ⟨l, hl, hexec⟩ := List.any_eq_true.1 hexec
  obtain ⟨htext, hone⟩ := of_decide_eq_true hexec
  obtain ⟨hplan, hcall⟩ := called_eq_some hcalled
  refine ⟨w, context, r, po, .of_exec hw, hplan, of_decide_eq_true hmode, hcall, hcreated, hpo, fun hcounts => ?_⟩
  have hvalue := hcounts l hl
  rw [htext, hone] at hvalue
  have htwo : TextValue "2" 2 := ⟨⟨false, 2, 0⟩, by decide +kernel, by norm_num [Decimal.toRat, Decimal.int]⟩
  exact absurd (textValue_unique hvalue htwo) (by norm_num)

end InvoiceOps
