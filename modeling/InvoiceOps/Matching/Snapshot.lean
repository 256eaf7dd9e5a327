import InvoiceOps.Matching.Allocation

/-! The context that is stored with a three-way run, against what is committed when the run is. A match and
the receipt service take the row of the purchase order `FOR UPDATE`. A confirmation in a case does not ask for
it, but `goods_receipts.purchase_order_id` is a foreign key: the insert of the receipt takes the key-share lock
of that row, which waits while a transaction holds the row `FOR UPDATE`. -/

namespace InvoiceOps

open Calendar StateMachine

/-- The lock the foreign key of a confirmed receipt asks for. -/
def KeyShare (w : MatchWorld) : MatchAct → Prop
  | .confirmReceipt receipt => w.locks receipt.purchaseOrderId = none
  | _ => True

instance (w : MatchWorld) : (a : MatchAct) → Decidable (KeyShare w a)
  | .confirmReceipt receipt => inferInstanceAs (Decidable (w.locks receipt.purchaseOrderId = none))
  | .createOrder _ | .extract _ | .beginReceipt _ _ | .beginReversal _ _ _ | .beginMatch _ _ _ _
  | .readExtraction _ | .readReceipts _ | .readAllocations _ | .searchPrior _ | .searchExisting _ | .decide _ _
  | .assess _ _ _ _ _ | .repair _ _ _ _ | .commit _ | .recover _ | .abort _ => .isTrue trivial

/-- The machine with the locks of the foreign keys. -/
def MatchWorld.nextLocked (E : MatchingEnv) : MatchWorld → MatchAct → Option MatchWorld :=
  restrict KeyShare (MatchWorld.next E)

/-- Receipts and allocations are on lines of their purchase order, and a receipt has a line. -/
structure LinesOk (db : Tables) : Prop where
  receipts : ∀ r ∈ db.receipts, ∃ po ∈ db.purchaseOrders, po.id = r.purchaseOrderId ∧ r.lines ≠ [] ∧
    ∀ l ∈ r.lines, l.purchaseOrderLineId ∈ po.lines.map (·.id)
  allocations : ∀ a ∈ db.allocations, ∃ po ∈ db.purchaseOrders, po.id = a.purchaseOrderId ∧
    a.purchaseOrderLineId ∈ po.lines.map (·.id)

section

variable {E : MatchingEnv} {db : Tables} {w w' : MatchWorld} {a : MatchAct}

theorem LinesOk.receipt {r : GoodsReceipt} (h : LinesOk db) (haccepts : db.AcceptsReceipt r) :
    LinesOk { db with receipts := db.receipts ++ [r] } := by
  refine ⟨fun r' hr' => ?_, h.allocations⟩
  rcases List.mem_append.1 hr' with hold | hnew
  · exact h.receipts r' hold
  · obtain rfl := List.mem_singleton.1 hnew
    obtain ⟨hlines, -, -, -, hne⟩ := haccepts
    obtain ⟨po, hpo, hall⟩ := (Option.any_eq_true _ _).1 hlines
    obtain ⟨hmem, hid⟩ := Tables.mem_purchaseOrders hpo
    exact ⟨po, hmem, hid, hne, fun l hl => of_decide_eq_true (List.all_eq_true.1 hall l hl)⟩

theorem LinesOk.reversal {receiptId : Uuid} {reversal : GoodsReceiptReversal} (h : LinesOk db) :
    LinesOk { db with
      receipts := db.receipts.map fun r => if r.id = receiptId then r.reverse reversal else r } := by
  refine ⟨fun r' hr' => ?_, h.allocations⟩
  obtain ⟨r, hr, rfl⟩ := List.mem_map.1 hr'
  have hr := h.receipts r hr
  split_ifs
  · exact hr
  · exact hr

theorem LinesOk.insert {rows : NewRows} (h : LinesOk db)
    (hrows : ∀ row ∈ rows.allocations, ∃ c x b run, RunRows E db c x b run rows) : LinesOk (db.insert rows) := by
  refine ⟨h.receipts, fun row hrow => ?_⟩
  rcases List.mem_append.1 hrow with hold | hnew
  · exact h.allocations row hold
  · obtain ⟨c, x, b, run, hrows⟩ := hrows row hnew
    obtain ⟨drafts, ids, hdecided, -⟩ := hrows.decided
    exact ⟨c.purchaseOrder, hdecided.call.1, (hrows.mem hnew).2.2.symm, hrows.line hnew⟩

theorem LinesOk.step (h : LinesOk w.db) (hinv : AllocationInv E w) (hstep : MatchMoves E w a w') :
    LinesOk w'.db := by
  cases hstep with
  | order =>
    refine ⟨fun r hr => ?_, fun row hrow => ?_⟩
    · obtain ⟨po, hpo, hrest⟩ := h.receipts r hr
      exact ⟨po, List.mem_append_left _ hpo, hrest⟩
    · obtain ⟨po, hpo, hrest⟩ := h.allocations row hrow
      exact ⟨po, List.mem_append_left _ hpo, hrest⟩
  | receipt _ haccepts => exact h.receipt haccepts
  | commitReceipt _ haccepts => exact h.receipt haccepts
  | commitReversal => exact h.reversal
  | @commit i key visible rows _ hi _ =>
    refine h.insert (E := E) fun row hrow => ?_
    have hready := hinv.txns i _ hi
    cases key with
    | none =>
      rw [hready.2] at hrow
      cases hrow
    | some key =>
      obtain ⟨c, x, b, run, -, hrows⟩ := hready
      exact ⟨c, x, b, run, hrows⟩
  | _ => exact ⟨h.receipts, h.allocations⟩

end

/-- The snapshot lists the receipts of the purchase order, the reversed ones with their reversals, and the
allocations of other documents. -/
structure ListsRows (db : Tables) (po : PurchaseOrder) (documentId : Uuid) (s : ThreeWayContextSnapshot) :
    Prop where
  active : ∀ id, (∃ l ∈ s.lines, id ∈ l.activeReceipts.map (·.receiptId)) ↔
    ∃ r ∈ db.receiptsOf po.id, r.reversal = none ∧ r.id = id
  reversed : ∀ id, (∃ l ∈ s.lines, id ∈ l.reversedReceipts.map (·.receiptId)) ↔
    ∃ r ∈ db.receiptsOf po.id, r.reversal ≠ none ∧ r.id = id
  reversals : ∀ id, (∃ l ∈ s.lines, id ∈ l.reversalIds) ↔
    ∃ r ∈ db.receiptsOf po.id, r.reversal.map (·.id) = some id
  allocations : ∀ row, (∃ l ∈ s.lines, row ∈ l.priorAllocations) ↔
    row ∈ (priorAllocations (db.allocationsOf po.id) documentId).map allocationRead

section

variable {receipts : List GoodsReceipt} {allocations : List ThreeWayAllocation} {po : PurchaseOrder}
  {documentId id : Uuid}

/-- Receipts that are on lines of the purchase order are listed under one of them. -/
theorem listed_receipts {p : GoodsReceipt → Bool} (hcovers : ∀ r ∈ receipts, ∃ line ∈ po.lines, r.Covers line.id) :
    (∃ line ∈ po.lines, id ∈ (sortById (·.receiptId) (receiptsOn receipts p line.id)).map (·.receiptId)) ↔
      ∃ r ∈ receipts, p r = true ∧ r.id = id := by
  constructor
  · rintro ⟨line, -, hmem⟩
    obtain ⟨x, hx, rfl⟩ := List.mem_map.1 hmem
    obtain ⟨r, hr, hp, -, hid, -⟩ := mem_receiptsOn ((perm_sortById _ _).mem_iff.1 hx)
    exact ⟨r, hr, hp, hid.symm⟩
  · rintro ⟨r, hr, hp, rfl⟩
    obtain ⟨line, hline, hc⟩ := hcovers r hr
    obtain ⟨x, hx, hid, -⟩ := exists_mem_receiptsOn hr hp hc
    exact ⟨line, hline, List.mem_map.2 ⟨x, (perm_sortById _ _).mem_iff.2 hx, hid⟩⟩

theorem mem_reversalsOn {poLineId : Uuid} : id ∈ reversalsOn receipts poLineId ↔
    ∃ r ∈ receipts, r.Covers poLineId ∧ r.reversal.map (·.id) = some id := by
  unfold reversalsOn
  rw [List.mem_filterMap]
  refine exists_congr fun r => and_congr_right fun _ => ?_
  have hcovers : (r.lines.find? (·.purchaseOrderLineId = poLineId)).isSome ↔ r.Covers poLineId := by
    simp [GoodsReceipt.Covers]
  cases hfind : r.lines.find? (·.purchaseOrderLineId = poLineId) with
  | none => simp [← hcovers, hfind]
  | some l =>
    cases r.reversal with
    | none => simp
    | some reversal => simp [← hcovers, hfind]

theorem listed_reversals (hcovers : ∀ r ∈ receipts, ∃ line ∈ po.lines, r.Covers line.id) :
    (∃ line ∈ po.lines, id ∈ sortById (fun u => u) (reversalsOn receipts line.id)) ↔
      ∃ r ∈ receipts, r.reversal.map (·.id) = some id := by
  constructor
  · rintro ⟨line, -, hmem⟩
    obtain ⟨r, hr, -, hid⟩ := mem_reversalsOn.1 ((perm_sortById _ _).mem_iff.1 hmem)
    exact ⟨r, hr, hid⟩
  · rintro ⟨r, hr, hid⟩
    obtain ⟨line, hline, hc⟩ := hcovers r hr
    exact ⟨line, hline, (perm_sortById _ _).mem_iff.2 (mem_reversalsOn.2 ⟨r, hr, hc, hid⟩)⟩

/-- Allocations on lines of the purchase order are listed under theirs. -/
theorem listed_allocations {row : PriorAllocationRead}
    (hlines : ∀ a ∈ allocations, a.purchaseOrderLineId ∈ po.lines.map (·.id)) :
    (∃ line ∈ po.lines, row ∈ ((priorAllocations (sortById (·.id) allocations) documentId).filter
        (·.purchaseOrderLineId = line.id)).map allocationRead) ↔
      row ∈ (priorAllocations allocations documentId).map allocationRead := by
  have hmem : ∀ a, a ∈ priorAllocations (sortById (·.id) allocations) documentId ↔
      a ∈ priorAllocations allocations documentId := fun a => ((perm_sortById _ _).filter _).mem_iff
  constructor
  · rintro ⟨line, -, hrow⟩
    obtain ⟨a, ha, rfl⟩ := List.mem_map.1 hrow
    exact List.mem_map_of_mem ((hmem a).1 (List.mem_filter.1 ha).1)
  · intro hrow
    obtain ⟨a, ha, rfl⟩ := List.mem_map.1 hrow
    obtain ⟨line, hline, hid⟩ := List.mem_map.1 (hlines a (List.mem_filter.1 ha).1)
    exact ⟨line, hline, List.mem_map_of_mem (List.mem_filter.2 ⟨(hmem a).2 ha, decide_eq_true hid.symm⟩)⟩

theorem exists_line_snapshotOf [DecimalContext] {policy : ThreeWayMatchingPolicy} {Q : ReceiptLineContextRead → Prop} :
    (∃ l ∈ (snapshotOf receipts allocations po policy documentId).lines, Q l) ↔
      ∃ line ∈ po.lines, Q (lineContext receipts allocations documentId line) := by
  simp [snapshotOf]

end

section

variable {E : MatchingEnv} {db : Tables} {po : PurchaseOrder}

theorem LinesOk.covers (h : LinesOk db) (hids : (db.purchaseOrders.map (·.id)).Nodup) (hpo : po ∈ db.purchaseOrders) :
    ∀ r ∈ db.receiptsOf po.id, ∃ line ∈ po.lines, r.Covers line.id := by
  intro r hr
  obtain ⟨hmem, hid⟩ := List.mem_filter.1 hr
  obtain ⟨po', hpo', hid', hne, hall⟩ := h.receipts r hmem
  obtain rfl : po' = po := List.inj_on_of_nodup_map hids hpo' hpo (hid'.trans (of_decide_eq_true hid))
  obtain ⟨l, hl⟩ := List.exists_mem_of_ne_nil _ hne
  obtain ⟨line, hline, hlid⟩ := List.mem_map.1 (hall l hl)
  exact ⟨line, hline, l, hl, hlid.symm⟩

theorem LinesOk.lines (h : LinesOk db) (hids : (db.purchaseOrders.map (·.id)).Nodup) (hpo : po ∈ db.purchaseOrders) :
    ∀ a ∈ db.allocationsOf po.id, a.purchaseOrderLineId ∈ po.lines.map (·.id) := by
  intro a ha
  obtain ⟨hmem, hid⟩ := List.mem_filter.1 ha
  obtain ⟨po', hpo', hid', hline⟩ := h.allocations a hmem
  obtain rfl : po' = po := List.inj_on_of_nodup_map hids hpo' hpo (hid'.trans (of_decide_eq_true hid))
  exact hline

theorem snapshotOf_lists [DecimalContext] (h : LinesOk db) (hids : (db.purchaseOrders.map (·.id)).Nodup)
    (hpo : po ∈ db.purchaseOrders) (policy : ThreeWayMatchingPolicy) (documentId : Uuid) :
    ListsRows db po documentId
      (snapshotOf (db.receiptsOf po.id) (db.allocationsOf po.id) po policy documentId) := by
  have hcovers := h.covers hids hpo
  refine ⟨fun id => ?_, fun id => ?_, fun id => ?_, fun row => ?_⟩
  all_goals rw [exists_line_snapshotOf]
  · refine (listed_receipts hcovers).trans ?_
    simp only [Option.isNone_iff_eq_none]
  · refine (listed_receipts hcovers).trans ?_
    simp only [Option.isSome_iff_ne_none]
  · exact listed_reversals hcovers
  · exact listed_allocations (h.lines hids hpo)

end

/-- The context a call builds from the tables. -/
def Tables.contextOf (db : Tables) (E : MatchingEnv) (c : MatchCall) : BuiltContext :=
  E.build c (db.receiptsOf c.purchaseOrder.id) (db.allocationsOf c.purchaseOrder.id)

/-- The receipts a transaction has read and the context it has built are those of the tables. -/
def Current (E : MatchingEnv) (db : Tables) : TxnPhase → Prop
  | .received c _ receipts => receipts = db.receiptsOf c.purchaseOrder.id
  | .built c _ b | .searched c _ b => b = db.contextOf E c
  | .absent c _ b | .decided c _ b _ _ => ∀ context, b = some context → context = db.contextOf E c
  | .ready (some _) _ rows => ∀ run ∈ rows.runs, run.matchingMode = .threeWay →
      ∃ po ∈ db.purchaseOrders, po.id = run.purchaseOrderId ∧
        rows.contexts = [contextRow run (db.contextOf E ⟨run.documentId, po, .threeWay⟩)]
  | _ => True

/-- A held purchase order has the same receipts and allocations. -/
structure KeepsCurrent (held : Option Uuid) (db db' : Tables) : Prop where
  orders : db.purchaseOrders ⊆ db'.purchaseOrders
  receipts : ∀ p, held = some p → db'.receiptsOf p = db.receiptsOf p
  allocations : ∀ p, held = some p → db'.allocationsOf p = db.allocationsOf p

section

variable {E : MatchingEnv} {db db' : Tables} {w w' : MatchWorld} {a : MatchAct} {i : ℕ} {phase phase' : TxnPhase}

theorem KeepsCurrent.refl (held : Option Uuid) (db : Tables) : KeepsCurrent held db db :=
  ⟨List.Subset.refl _, fun _ _ => rfl, fun _ _ => rfl⟩

theorem KeepsCurrent.contextOf {held : Option Uuid} {c : MatchCall} (hk : KeepsCurrent held db db')
    (hheld : held = some c.purchaseOrder.id) : db'.contextOf E c = db.contextOf E c := by
  rw [Tables.contextOf, hk.receipts _ hheld, hk.allocations _ hheld]
  rfl

theorem Current.mono (h : Current E db phase) (hok : TxnOk E db phase) (hk : KeepsCurrent phase.holds db db') :
    Current E db' phase := by
  have hcontext : ∀ {c : MatchCall} {b : Option BuiltContext}, ContextOk E db c b →
      (∀ context, b = some context → context = db.contextOf E c) →
      KeepsCurrent (if c.mode = .threeWay then some c.purchaseOrder.id else none) db db' →
      ∀ context, b = some context → context = db'.contextOf E c := by
    rintro c b hb hcurrent hk context rfl
    rw [hk.contextOf (if_pos hb.1)]
    exact hcurrent context rfl
  cases phase with
  | received c x receipts =>
    rw [Current, hk.receipts _ (if_pos hok.2.1)]
    exact h
  | built c x b => exact hcontext hok.2 (fun _ heq => Option.some.inj heq ▸ h) hk b rfl
  | searched c x b => exact hcontext hok.2 (fun _ heq => Option.some.inj heq ▸ h) hk b rfl
  | absent c x b => exact hcontext hok.2 h hk
  | decided c x b run drafts => exact hcontext hok.context h hk
  | ready key visible rows =>
    cases key with
    | none => trivial
    | some key =>
      obtain ⟨c, x, b, run, rfl, hrows⟩ := hok
      intro run' hrun' hmode
      obtain ⟨po, hpo, hid, hcontexts⟩ := h run' hrun' hmode
      rw [hrows.runs] at hrun'
      obtain rfl := List.mem_singleton.1 hrun'
      refine ⟨po, hk.orders hpo, hid, ?_⟩
      have hheld : TxnPhase.holds (.ready (some run'.key) visible rows) = some run'.purchaseOrderId := if_pos hmode
      rw [hk.contextOf (hheld.trans (congrArg some hid.symm))]
      exact hcontexts
  | _ => trivial

theorem Reads.current (h : Reads E db phase phase') (hok : TxnOk E db phase) (hcurrent : Current E db phase) :
    Current E db phase' := by
  cases h with
  | receipts => exact rfl
  | allocations =>
    change E.build _ _ _ = _
    rw [show _ = _ from hcurrent]
    rfl
  | noPrior => exact hcurrent
  | absentTwoWay => exact fun _ heq => by cases heq
  | absent => exact fun _ heq => Option.some.inj heq ▸ hcurrent
  | decide => exact hcurrent
  | @assess c x b run drafts ids allocations assessmentId risk caseId now hrows hrisk =>
    intro run' hrun' hmode
    obtain rfl := List.mem_singleton.1 hrun'
    obtain ⟨hcall, hcontext, id, found, -, rfl, -⟩ := hok
    cases b with
    | none =>
      have htwo : c.mode = .twoWay := hcontext
      exact absurd (htwo.symm.trans hmode) (by decide)
    | some b =>
      refine ⟨c.purchaseOrder, hcall.1, rfl, ?_⟩
      have hcall' : (⟨c.documentId, c.purchaseOrder, .threeWay⟩ : MatchCall) = c := by rw [← hcontext.1]
      rw [show b = _ from hcurrent b rfl]
      exact congrArg (fun c' => [contextRow _ (db.contextOf E c')]) hcall'.symm
  | _ => trivial

structure CurrentInv (E : MatchingEnv) (w : MatchWorld) : Prop where
  allocation : AllocationInv E w
  lines : LinesOk w.db
  current : ∀ i phase, w.txns i = some phase → Current E w.db phase

/-- The transaction of `i` goes on or ends; the others still know what they did. -/
theorem CurrentInv.update {phase : Option TxnPhase} (h : CurrentInv E w) (hinv : AllocationInv E w')
    (hlines : LinesOk w'.db) (htxns : w'.txns = Function.update w.txns i phase)
    (hkeeps : ∀ j ph, j ≠ i → w.txns j = some ph → KeepsCurrent ph.holds w.db w'.db)
    (hphase : ∀ ph, phase = some ph → Current E w'.db ph) : CurrentInv E w' := by
  refine ⟨hinv, hlines, forall_txns_update h.current htxns (fun j ph hji hj hcurrent => ?_) hphase⟩
  exact hcurrent.mono (h.allocation.txns j ph hj) (hkeeps j ph hji hj)

/-- A receipt is added to a purchase order that no other transaction holds. -/
theorem KeepsCurrent.receipt {held : Option Uuid} {r : GoodsReceipt} (hheld : held ≠ some r.purchaseOrderId) :
    KeepsCurrent held db { db with receipts := db.receipts ++ [r] } := by
  refine { KeepsCurrent.refl held db with receipts := fun p hp => ?_ }
  have hne : r.purchaseOrderId ≠ p := fun heq => hheld (heq ▸ hp)
  exact Lists.filter_snoc_of_ne hne

theorem CurrentInv.step (h : CurrentInv E w) (hshare : KeyShare w a) (hstep : MatchMoves E w a w') :
    CurrentInv E w' := by
  have hinv := h.allocation.step hstep
  have hlines := h.lines.step h.allocation hstep
  have hends : ∀ {db' : Tables} (ph : TxnPhase), (none : Option TxnPhase) = some ph → Current E db' ph :=
    fun _ hph => by cases hph
  cases hstep with
  | order =>
    refine ⟨hinv, hlines, fun j ph hj => (h.current j ph hj).mono (h.allocation.txns j ph hj) ?_⟩
    exact ⟨List.subset_append_left _ _, fun _ _ => rfl, fun _ _ => rfl⟩
  | extraction =>
    refine ⟨hinv, hlines, fun j ph hj => (h.current j ph hj).mono (h.allocation.txns j ph hj) ?_⟩
    exact ⟨List.Subset.refl _, fun _ _ => rfl, fun _ _ => rfl⟩
  | receipt ha haccepts =>
    subst ha
    refine ⟨hinv, hlines, fun j ph hj => (h.current j ph hj).mono (h.allocation.txns j ph hj) ?_⟩
    refine .receipt fun hheld => ?_
    have hlock := h.allocation.locks j ph _ hj hheld
    rw [show w.locks _ = none from hshare] at hlock
    cases hlock
  | lockReceipt => exact h.update hinv hlines rfl (fun _ _ _ _ => .refl _ _) fun _ hph => by cases hph; trivial
  | lockReversal => exact h.update hinv hlines rfl (fun _ _ _ _ => .refl _ _) fun _ hph => by cases hph; trivial
  | lockMatch => exact h.update hinv hlines rfl (fun _ _ _ _ => .refl _ _) fun _ hph => by cases hph; trivial
  | enterMatch => exact h.update hinv hlines rfl (fun _ _ _ _ => .refl _ _) fun _ hph => by cases hph; trivial
  | @read i phase phase' hi hread =>
    refine h.update hinv hlines rfl (fun _ _ _ _ => .refl _ _) fun ph hph => ?_
    obtain rfl := Option.some.inj hph
    exact hread.current (h.allocation.txns i phase hi) (h.current i phase hi)
  | finish => exact h.update hinv hlines rfl (fun _ _ _ _ => .refl _ _) hends
  | rollback => exact h.update hinv hlines rfl (fun _ _ _ _ => .refl _ _) fun _ hph => by cases hph; trivial
  | commit ha hi haccepts =>
    refine h.update hinv hlines rfl (fun j ph hji hj => ?_) hends
    exact ⟨List.Subset.refl _, fun _ _ => rfl, (Keeps.insert h.allocation hi hji hj).allocations⟩
  | commitReceipt hi haccepts =>
    refine h.update hinv hlines rfl (fun j ph hji hj => .receipt fun hheld => hji ?_) hends
    exact Option.some.inj ((h.allocation.locks j ph _ hj hheld).symm.trans (h.allocation.locks _ _ _ hi rfl))
  | commitReversal hi =>
    refine h.update hinv hlines rfl (fun j ph hji hj => ?_) hends
    refine ⟨List.Subset.refl _, fun p hp => ?_, fun _ _ => rfl⟩
    refine receiptsOf_reversal h.allocation.tables.receiptIds (h.allocation.txns _ _ hi) fun heq => hji ?_
    rw [heq] at hp
    exact Option.some.inj ((h.allocation.locks j ph _ hj hp).symm.trans (h.allocation.locks _ _ _ hi rfl))

theorem currentInv_of_steps {acts : List MatchAct} (h : Steps (MatchWorld.nextLocked E) .initial acts w) :
    CurrentInv E w := by
  refine h.invariant (fun s e t hs hn => ?_) ⟨allocationInv_initial E, ⟨?_, ?_⟩, ?_⟩
  · obtain ⟨hshare, hnext⟩ := restrict_eq_some.1 hn
    exact hs.step hshare (matchMoves_of_next hnext)
  · intro _ hmem
    cases hmem
  · intro _ hmem
    cases hmem
  · intro _ _ hmem
    cases hmem

end

section

variable {E : MatchingEnv} {w w' : MatchWorld} {a : MatchAct} {run : MatchRun}

/-- A stored context is not changed, and its run gets no other. -/
theorem contexts_kept {acts : List MatchAct} (h : Steps (MatchWorld.nextLocked E) w acts w') {id : Uuid}
    {x : ThreeWayContext} (hx : w.db.contexts.filter (·.matchRunId = id) = [x]) :
    w'.db.contexts.filter (·.matchRunId = id) = [x] := by
  refine h.invariant (I := fun s => s.db.contexts.filter (·.matchRunId = id) = [x]) (fun s e t hs hn => ?_) hx
  cases matchMoves_of_next (restrict_eq_some.1 hn).2 with
  | @commit i key visible rows _ _ haccepts =>
    have hmem : x ∈ s.db.contexts ∧ x.matchRunId = id := by
      have hx : x ∈ s.db.contexts.filter (·.matchRunId = id) := hs ▸ List.mem_singleton_self x
      exact ⟨(List.mem_filter.1 hx).1, of_decide_eq_true (List.mem_filter.1 hx).2⟩
    have hnil : rows.contexts.filter (·.matchRunId = id) = [] := by
      refine List.filter_eq_nil_iff.2 fun y hy heq => haccepts.contexts y hy ?_
      rw [of_decide_eq_true heq, ← hmem.2]
      exact List.mem_map_of_mem hmem.1
    change (s.db.contexts ++ rows.contexts).filter _ = [x]
    rw [List.filter_append, hnil, List.append_nil]
    exact hs
  | _ => exact hs

theorem CurrentInv.new_run (h : CurrentInv E w) (hstep : MatchMoves E w a w') (hrun : run ∈ w'.db.runs)
    (hnew : run ∉ w.db.runs) (hmode : run.matchingMode = .threeWay) :
    ∃ po ∈ w.db.purchaseOrders, po.id = run.purchaseOrderId ∧ ∃ rows, w.db.Accepts rows ∧
      w'.db = w.db.insert rows ∧ (∀ row ∈ rows.allocations, row.documentId = run.documentId) ∧
      rows.contexts = [contextRow run (w.db.contextOf E ⟨run.documentId, po, .threeWay⟩)] := by
  obtain ⟨i, key, visible, rows, hi, haccepts, hdb, hmem⟩ := hstep.new_run hrun hnew
  have hready := h.allocation.txns i _ hi
  cases key with
  | none =>
    rw [hready.1] at hmem
    cases hmem
  | some key =>
    obtain ⟨po, hpo, hid, hcontexts⟩ := h.current i _ hi run hmem hmode
    obtain ⟨c, x, b, run', -, hrows⟩ := hready
    rw [hrows.runs] at hmem
    obtain rfl := List.mem_singleton.1 hmem
    refine ⟨po, hpo, hid, rows, haccepts, hdb, fun row hrow => ?_, hcontexts⟩
    obtain ⟨drafts, ids, ⟨-, -, id, found, -, rfl, -⟩, -⟩ := hrows.decided
    exact (hrows.mem hrow).2.1

theorem priorAllocations_insert {db : Tables} {rows : NewRows} {documentId : Uuid} (p : Uuid)
    (hrows : ∀ row ∈ rows.allocations, row.documentId = documentId) :
    priorAllocations ((db.insert rows).allocationsOf p) documentId = priorAllocations (db.allocationsOf p) documentId := by
  rw [allocationsOf_insert, priorAllocations, List.filter_append]
  have hnil : (rows.allocations.filter (·.purchaseOrderId = p)).filter (·.documentId ≠ documentId) = [] := by
    refine List.filter_eq_nil_iff.2 fun row hrow hne => ?_
    exact of_decide_eq_true hne (hrows row (List.mem_filter.1 hrow).1)
  rw [hnil, List.append_nil, priorAllocations]

/-- A run changes neither the receipts nor the allocations of other documents. -/
theorem ListsRows.insert {db : Tables} {po : PurchaseOrder} {documentId : Uuid} {s : ThreeWayContextSnapshot}
    {rows : NewRows} (h : ListsRows db po documentId s) (hrows : ∀ row ∈ rows.allocations, row.documentId = documentId) :
    ListsRows (db.insert rows) po documentId s := by
  refine ⟨h.active, h.reversed, h.reversals, ?_⟩
  rw [priorAllocations_insert po.id hrows]
  exact h.allocations

end

/-- Over every interleaving of matches, receipts, reversals and confirmations: the context that is stored with
a three-way run, and stays stored with it, is built from the receipts and allocations there are when the run is
committed, and lists exactly the receipts, the reversals and the allocations of other documents. -/
theorem context_lists_committed (E : MatchingEnv) {acts : List MatchAct} {w w' : MatchWorld} {a : MatchAct}
    (h : Steps (MatchWorld.nextLocked E) .initial acts w) (hstep : w.nextLocked E a = some w') {run : MatchRun}
    (hrun : run ∈ w'.db.runs) (hnew : run ∉ w.db.runs) (hmode : run.matchingMode = .threeWay) :
    ∃ x, (∀ acts' w'', Steps (MatchWorld.nextLocked E) w' acts' w'' →
        w''.db.contexts.filter (·.matchRunId = run.id) = [x]) ∧
      ∃ po ∈ w'.db.purchaseOrders, po.id = run.purchaseOrderId ∧
        x.snapshot = @snapshotOf (w.db.receiptsOf po.id) (w.db.allocationsOf po.id) E.decimals po E.threeWayPolicy
          run.documentId ∧
        ListsRows w'.db po run.documentId x.snapshot := by
  have hinv := currentInv_of_steps h
  obtain ⟨-, hnext⟩ := restrict_eq_some.1 hstep
  obtain ⟨po, hpo, hid, rows, haccepts, hdb, hdocument, hcontexts⟩ :=
    hinv.new_run (matchMoves_of_next hnext) hrun hnew hmode
  refine ⟨contextRow run (w.db.contextOf E ⟨run.documentId, po, .threeWay⟩), fun acts' w'' hlater => ?_, po, ?_,
    hid, rfl, ?_⟩
  · refine contexts_kept hlater ?_
    rw [hdb]
    change (w.db.contexts ++ rows.contexts).filter _ = _
    rw [hcontexts]
    exact Lists.filter_snoc_self rfl (haccepts.contexts _ (hcontexts ▸ List.mem_singleton_self _))
  · rw [hdb]
    exact hpo
  · rw [hdb]
    let _ : DecimalContext := E.decimals
    exact (snapshotOf_lists hinv.lines hinv.allocation.tables.orderIds hpo _ _).insert hdocument

/-- The tap, up to the commit of its match. -/
def tapReady : List MatchAct := tapActs.dropLast

theorem context_lists_committed_taps : ∃ w w' run, Steps (MatchWorld.nextLocked tapEnv) .initial tapReady w ∧
    w.nextLocked tapEnv (.commit 0) = some w' ∧ w'.db.runs = [run] ∧
    ∃ x, w'.db.contexts.filter (·.matchRunId = run.id) = [x] ∧ ∃ po ∈ w'.db.purchaseOrders,
      ListsRows w'.db po run.documentId x.snapshot := by
  have hexec : (exec (MatchWorld.nextLocked tapEnv) .initial tapReady).any
      (fun w => w.db.runs.isEmpty && (w.nextLocked tapEnv (.commit 0)).any
        fun w' => decide (w'.db.runs.map (·.matchingMode) = [.threeWay])) = true := by
    decide +kernel
  obtain ⟨w, hw, hlast⟩ := (Option.any_eq_true _ _).1 hexec
  obtain ⟨hempty, hlast⟩ := Bool.and_eq_true_iff.1 hlast
  obtain ⟨w', hw', hruns⟩ := (Option.any_eq_true _ _).1 hlast
  obtain ⟨run, hrun, hmode⟩ := List.map_eq_singleton_iff.1 (of_decide_eq_true hruns)
  have hnew : run ∉ w.db.runs := by simp [List.isEmpty_iff.1 hempty]
  obtain ⟨x, hx, po, hpo, -, -, hlists⟩ := context_lists_committed tapEnv (.of_exec hw) hw'
    (hrun ▸ List.mem_singleton_self run) hnew hmode
  exact ⟨w, w', run, .of_exec hw, hw', hrun, x, hx [] w' .nil, po, hpo, hlists⟩

end InvoiceOps
