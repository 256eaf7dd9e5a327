import InvoiceOps.Matching.Reservation

/-! Allocations over whole runs of the matching machine. A three-way match holds the row of its purchase
order from its first read to its commit, so the allocations it has read are those there are, and of the
receipts it has read none has been reversed: others of the same purchase order wait, and a confirmed
receipt only adds to them. -/

namespace InvoiceOps

open Calendar StateMachine

/-- The purchase order whose row a transaction holds. -/
def TxnPhase.holds : TxnPhase → Option Uuid
  | .begun c | .extracted c _ | .received c _ _ | .built c _ _ | .searched c _ _ | .absent c _ _
  | .decided c _ _ _ _ => if c.mode = .threeWay then some c.purchaseOrder.id else none
  | .ready (some key) _ _ => if key.matchingMode = .threeWay then some key.purchaseOrderId else none
  | .ready none _ _ | .recovering _ | .replaying _ => none
  | .receiving receipt => some receipt.purchaseOrderId
  | .reversing _ purchaseOrderId _ => some purchaseOrderId

section

variable (E : MatchingEnv) (db : Tables)

/-- The context was built from receipts that are still there and from the allocations there are; a two-way
match has none. -/
def ContextOk (c : MatchCall) : Option BuiltContext → Prop
  | none => c.mode = .twoWay
  | some b => c.mode = .threeWay ∧ ∃ receipts, receipts <+: db.receiptsOf c.purchaseOrder.id ∧
      b = E.build c receipts (db.allocationsOf c.purchaseOrder.id)

/-- The purchase order and the extraction of a call are stored. -/
def CallOk (c : MatchCall) (x : ExtractionRun) : Prop :=
  c.purchaseOrder ∈ db.purchaseOrders ∧ x ∈ db.extractions

/-- The run is what the call decides on the tables as they are. -/
structure DecidedOn (c : MatchCall) (x : ExtractionRun) (b : Option BuiltContext) (run : MatchRun)
    (drafts : List AllocationDraft) : Prop where
  call : CallOk db c x
  context : ContextOk E db c b
  decision : ∃ id found, E.decision c x b (db.ownAllocations c.documentId c.purchaseOrder.id) = some found ∧
    run = E.newRun c x b id found.1 ∧ drafts = found.2

/-- The rows of a new run, made from what its call decided on the tables. -/
structure RunRows (c : MatchCall) (x : ExtractionRun) (b : Option BuiltContext) (run : MatchRun)
    (rows : NewRows) : Prop where
  decided : ∃ drafts ids, DecidedOn E db c x b run drafts ∧ newAllocations run ids drafts = some rows.allocations
  runs : rows.runs = [run]

/-- What a transaction has read and made so far still agrees with the tables. -/
def TxnOk : TxnPhase → Prop
  | .begun c => c.purchaseOrder ∈ db.purchaseOrders
  | .extracted c x => CallOk db c x
  | .received c x receipts => CallOk db c x ∧ c.mode = .threeWay ∧ receipts <+: db.receiptsOf c.purchaseOrder.id
  | .built c x b | .searched c x b => CallOk db c x ∧ ContextOk E db c (some b)
  | .absent c x b => CallOk db c x ∧ ContextOk E db c b
  | .decided c x b run drafts => DecidedOn E db c x b run drafts
  | .ready (some key) _ rows => ∃ c x b run, key = run.key ∧ RunRows E db c x b run rows
  | .ready none _ rows => rows.runs = [] ∧ rows.allocations = []
  | .reversing receiptId purchaseOrderId _ => (receiptId, purchaseOrderId) ∈
      db.receipts.map fun r => (r.id, r.purchaseOrderId)
  | .recovering _ | .replaying _ | .receiving _ => True

end

/-- The tables of one purchase order a holder of its row relies on, and the rows nobody removes. -/
structure Keeps (held : Option Uuid) (db db' : Tables) : Prop where
  orders : db.purchaseOrders ⊆ db'.purchaseOrders
  extractions : db.extractions ⊆ db'.extractions
  receiptKeys : db.receipts.map (fun r => (r.id, r.purchaseOrderId)) ⊆
    db'.receipts.map fun r => (r.id, r.purchaseOrderId)
  receipts : ∀ p, held = some p → db.receiptsOf p <+: db'.receiptsOf p
  allocations : ∀ p, held = some p → db'.allocationsOf p = db.allocationsOf p

theorem Keeps.refl (held : Option Uuid) (db : Tables) : Keeps held db db :=
  ⟨List.Subset.refl _, List.Subset.refl _, List.Subset.refl _, fun _ _ => List.prefix_refl _, fun _ _ => rfl⟩

section

variable {E : MatchingEnv} {db db' : Tables} {c : MatchCall} {x : ExtractionRun}

theorem CallOk.mono {held : Option Uuid} (h : CallOk db c x) (hk : Keeps held db db') : CallOk db' c x :=
  ⟨hk.orders h.1, hk.extractions h.2⟩

theorem ContextOk.mono {b : Option BuiltContext} (h : ContextOk E db c b)
    (hk : Keeps (if c.mode = .threeWay then some c.purchaseOrder.id else none) db db') : ContextOk E db' c b := by
  cases b with
  | none => exact h
  | some b =>
    obtain ⟨hmode, receipts, hinit, rfl⟩ := h
    rw [if_pos hmode] at hk
    refine ⟨hmode, receipts, hinit.trans (hk.receipts _ rfl), ?_⟩
    rw [hk.allocations _ rfl]

/-- A two-way decision does not depend on allocations, and those of a three-way one are kept. -/
theorem DecidedOn.mono {b : Option BuiltContext} {run : MatchRun} {drafts : List AllocationDraft}
    (h : DecidedOn E db c x b run drafts)
    (hk : Keeps (if c.mode = .threeWay then some c.purchaseOrder.id else none) db db') :
    DecidedOn E db' c x b run drafts := by
  obtain ⟨hcall, hcontext, id, found, hfound, hrun, hdrafts⟩ := h
  refine ⟨hcall.mono hk, hcontext.mono hk, id, found, ?_, hrun, hdrafts⟩
  cases b with
  | none => exact hfound
  | some b =>
    rw [if_pos hcontext.1] at hk
    rwa [Tables.ownAllocations, hk.allocations _ rfl]

theorem DecidedOn.key {b : Option BuiltContext} {run : MatchRun} {drafts : List AllocationDraft}
    (h : DecidedOn E db c x b run drafts) :
    run.key.matchingMode = c.mode ∧ run.key.purchaseOrderId = c.purchaseOrder.id := by
  obtain ⟨-, -, id, found, -, rfl, -⟩ := h
  exact ⟨rfl, rfl⟩

/-- What a transaction knows stays true while the tables it relies on are kept. -/
theorem TxnOk.mono {phase : TxnPhase} (h : TxnOk E db phase) (hk : Keeps phase.holds db db') :
    TxnOk E db' phase := by
  cases phase with
  | begun c => exact hk.orders h
  | extracted c x => exact CallOk.mono h hk
  | received c x receipts =>
    obtain ⟨hcall, hmode, hinit⟩ := h
    refine ⟨hcall.mono hk, hmode, hinit.trans (hk.receipts _ ?_)⟩
    exact if_pos hmode
  | built c x b => exact ⟨h.1.mono hk, h.2.mono hk⟩
  | searched c x b => exact ⟨h.1.mono hk, h.2.mono hk⟩
  | absent c x b => exact ⟨h.1.mono hk, h.2.mono hk⟩
  | decided c x b run drafts => exact DecidedOn.mono h hk
  | ready key visible rows =>
    cases key with
    | none => exact h
    | some key =>
      obtain ⟨c, x, b, run, rfl, ⟨drafts, ids, hdecided, hrows⟩, hruns⟩ := h
      refine ⟨c, x, b, run, rfl, ⟨drafts, ids, hdecided.mono ?_, hrows⟩, hruns⟩
      rw [← hdecided.key.1, ← hdecided.key.2]
      exact hk
  | reversing receiptId purchaseOrderId reversal => exact hk.receiptKeys h
  | recovering key => trivial
  | replaying run => trivial
  | receiving receipt => trivial

theorem Tables.mem_extractions {documentId : Uuid} (h : db.currentExtraction documentId = some x) :
    x ∈ db.extractions :=
  (List.mem_filter.1 ((List.perm_insertionSort _ _).mem_iff.1 (List.mem_of_mem_head? h))).1

/-- A read makes the transaction know more, and it needs no row it does not hold. -/
theorem Reads.ok {phase phase' : TxnPhase} (h : Reads E db phase phase') (hok : TxnOk E db phase) :
    TxnOk E db phase' ∧ ∀ p, phase'.holds = some p → phase.holds = some p := by
  cases h with
  | extraction hx => exact ⟨⟨hok, Tables.mem_extractions hx⟩, fun _ hp => hp⟩
  | receipts hmode => exact ⟨⟨hok, hmode, List.prefix_refl _⟩, fun _ hp => hp⟩
  | allocations =>
    obtain ⟨hcall, hmode, hinit⟩ := hok
    exact ⟨⟨hcall, hmode, _, hinit, rfl⟩, fun _ hp => hp⟩
  | noPrior _ => exact ⟨hok, fun _ hp => hp⟩
  | absentTwoWay hmode => exact ⟨⟨hok, hmode⟩, fun _ hp => hp⟩
  | absent => exact ⟨hok, fun _ hp => hp⟩
  | found => exact ⟨trivial, fun _ hp => by cases hp⟩
  | decide runId hfound => exact ⟨⟨hok.1, hok.2, runId, _, hfound, rfl, rfl⟩, fun _ hp => hp⟩
  | assess _ _ hrows =>
    have hkey := DecidedOn.key hok
    refine ⟨⟨_, _, _, _, rfl, ⟨_, _, hok, hrows⟩, rfl⟩, fun p hp => ?_⟩
    simp only [TxnPhase.holds, hkey.1, hkey.2] at hp
    exact hp
  | repair => exact ⟨⟨rfl, rfl⟩, fun _ hp => by cases hp⟩

end

/-- The quantity tolerance and the stored quantities are values of the columns, where the decimals are rounded at all. -/
structure QuantitiesFit (E : MatchingEnv) (db : Tables) : Prop where
  tolerance : E.Column E.threeWayPolicy.quantityAbsolute.toRat
  ordered : ∀ po ∈ db.purchaseOrders, ∀ l ∈ po.lines, E.Column l.orderedQuantity.toRat
  accepted : ∀ r ∈ db.receipts, ∀ l ∈ r.lines, E.Column l.acceptedQuantity.toRat

/-- What holds of the tables at every moment. -/
structure AllocationsOk (E : MatchingEnv) (db : Tables) : Prop where
  orderIds : (db.purchaseOrders.map (·.id)).Nodup
  extractionIds : (db.extractions.map (·.id)).Nodup
  receiptIds : (db.receipts.map (·.id)).Nodup
  keys : (db.allocations.map (·.key)).Nodup
  orders : ∀ a ∈ db.allocations, a.purchaseOrderId ∈ db.purchaseOrders.map (·.id)
  columns : ∀ a ∈ db.allocations, ∃ m : ℤ, |m| < 10 ^ 24 ∧ a.allocatedQuantity.toRat = m / 10 ^ 8
  bound : QuantitiesFit E db → ∀ po ∈ db.purchaseOrders, ∀ l ∈ po.lines,
    allocatedQuantity (db.allocationsOf po.id) l.id ≤
      l.orderedQuantity.toRat + 2 * E.threeWayPolicy.quantityAbsolute.toRat
  oneRun : ∀ a ∈ db.allocations, ∀ b ∈ db.allocations, a.documentId = b.documentId →
    a.purchaseOrderId = b.purchaseOrderId → a.matchRunId = b.matchRunId
  reserved : ∀ r ∈ db.runs, r.matchingMode = .threeWay → r.decision = .matched →
    ∃ x ∈ db.extractions, x.id = r.extractionRunId ∧
      Reserved x.invoice r.result.lineAssignments (db.ownAllocations r.documentId r.purchaseOrderId) ∧
      db.ownAllocations r.documentId r.purchaseOrderId ≠ []

structure AllocationInv (E : MatchingEnv) (w : MatchWorld) : Prop where
  tables : AllocationsOk E w.db
  txns : ∀ i phase, w.txns i = some phase → TxnOk E w.db phase
  locks : ∀ i phase p, w.txns i = some phase → phase.holds = some p → w.locks p = some i

section

variable {E : MatchingEnv} {w : MatchWorld} {i : ℕ}

theorem allocationInv_initial (E : MatchingEnv) : AllocationInv E .initial where
  tables := by
    refine ⟨.nil, .nil, .nil, .nil, ?_, ?_, fun _ => ?_, ?_, ?_⟩
    all_goals intro _ hmem; cases hmem
  txns _ _ h := by cases h
  locks _ _ _ h := by cases h

/-- The transaction of `i` goes on in another phase, with the rows it holds. -/
theorem AllocationInv.enter {phase : TxnPhase} (h : AllocationInv E w) (hok : TxnOk E w.db phase)
    (hlocks : ∀ p, phase.holds = some p → w.locks p = some i) : AllocationInv E (w.enter i phase) := by
  refine ⟨h.tables, fun j ph hj => ?_, fun j ph p hj hp => ?_⟩
  · by_cases hji : j = i
    · subst hji
      obtain rfl : phase = ph := by simpa [MatchWorld.enter] using hj
      exact hok
    · exact h.txns j ph (by simpa [MatchWorld.enter, hji] using hj)
  · by_cases hji : j = i
    · subst hji
      obtain rfl : phase = ph := by simpa [MatchWorld.enter] using hj
      exact hlocks p hp
    · exact h.locks j ph p (by simpa [MatchWorld.enter, hji] using hj) hp

theorem AllocationInv.lock {purchaseOrderId : Uuid} (h : AllocationInv E w)
    (hfree : w.locks purchaseOrderId = none) : AllocationInv E (w.lock i purchaseOrderId) := by
  refine ⟨h.tables, h.txns, fun j ph p hj hp => ?_⟩
  have hlock := h.locks j ph p hj hp
  have hne : p ≠ purchaseOrderId := by
    rintro rfl
    rw [hfree] at hlock
    cases hlock
  simpa [MatchWorld.lock, hne] using hlock

/-- The tables change and the transaction of `i` ends; the others still know what they did. -/
theorem AllocationInv.finish {db' : Tables} (h : AllocationInv E w) (htables : AllocationsOk E db')
    (hkeeps : ∀ j phase, j ≠ i → w.txns j = some phase → Keeps phase.holds w.db db') :
    AllocationInv E { w.finish i with db := db' } := by
  have hother : ∀ j phase, (w.finish i).txns j = some phase → j ≠ i ∧ w.txns j = some phase := by
    intro j phase hj
    by_cases hji : j = i
    · subst hji
      simp [MatchWorld.finish] at hj
    · exact ⟨hji, by simpa [MatchWorld.finish, hji] using hj⟩
  refine ⟨htables, fun j phase hj => ?_, fun j phase p hj hp => ?_⟩
  · obtain ⟨hji, hj⟩ := hother j phase hj
    exact (h.txns j phase hj).mono (hkeeps j phase hji hj)
  · obtain ⟨hji, hj⟩ := hother j phase hj
    have hlock := h.locks j phase p hj hp
    have hne : w.locks p ≠ some i := by
      rw [hlock]
      exact fun heq => hji (Option.some.inj heq)
    exact (if_neg hne).trans hlock

theorem AllocationInv.rollback {key : MatchKey} (h : AllocationInv E w) :
    AllocationInv E ((w.release i).enter i (.recovering key)) := by
  have heq : (w.release i).enter i (.recovering key) = (w.finish i).enter i (.recovering key) := by
    simp [MatchWorld.enter, MatchWorld.finish, MatchWorld.release]
  rw [heq]
  refine (h.finish h.tables fun _ _ _ _ => .refl _ _).enter trivial fun p hp => ?_
  cases hp

end

section

variable {E : MatchingEnv} {db : Tables}

theorem AllocationsOk.order {po : PurchaseOrder} (h : AllocationsOk E db)
    (hfresh : po.id ∉ db.purchaseOrders.map (·.id)) (hpo : po.Creatable) :
    AllocationsOk E { db with purchaseOrders := db.purchaseOrders ++ [po] } := by
  refine { h with
    orderIds := ?_
    orders := fun a ha => ?_
    bound := fun hfit po' hpo' l hl => ?_ }
  · exact Lists.nodup_map_snoc h.orderIds hfresh
  · rw [List.map_append]
    exact List.mem_append_left _ (h.orders a ha)
  · rcases List.mem_append.1 hpo' with hold | hnew
    · exact h.bound ⟨hfit.tolerance, fun p hp => hfit.ordered p (List.mem_append_left _ hp), hfit.accepted⟩ po' hold
        l hl
    · obtain rfl := List.mem_singleton.1 hnew
      have hnil : db.allocationsOf po'.id = [] := by
        refine List.filter_eq_nil_iff.2 fun a ha hid => hfresh ?_
        rw [← of_decide_eq_true hid]
        exact h.orders a ha
      have hpositive := (hpo l hl).1
      have htolerance := E.threeWayPolicy.quantity_nonneg
      have hzero : allocatedQuantity (db.allocationsOf po'.id) l.id = 0 := by simp [hnil, allocatedQuantity]
      change allocatedQuantity (db.allocationsOf po'.id) l.id ≤ _
      rw [hzero]
      linarith

theorem AllocationsOk.extraction {x : ExtractionRun} (h : AllocationsOk E db)
    (hfresh : x.id ∉ db.extractions.map (·.id)) :
    AllocationsOk E { db with extractions := db.extractions ++ [x] } := by
  refine { h with
    extractionIds := ?_
    bound := fun hfit => h.bound ⟨hfit.tolerance, hfit.ordered, hfit.accepted⟩
    reserved := fun r hr hmode hm => ?_ }
  · exact Lists.nodup_map_snoc h.extractionIds hfresh
  · obtain ⟨y, hy, hreserved⟩ := h.reserved r hr hmode hm
    exact ⟨y, List.mem_append_left _ hy, hreserved⟩

/-- Receipts do not matter to the invariant of the tables, as long as their ids are distinct and no line of one is
lost. -/
theorem AllocationsOk.withReceipts {receipts : List GoodsReceipt} (h : AllocationsOk E db)
    (hids : (receipts.map (·.id)).Nodup) (hlines : ∀ r ∈ db.receipts, ∃ r' ∈ receipts, r'.lines = r.lines) :
    AllocationsOk E { db with receipts := receipts } := by
  refine { h with receiptIds := hids, bound := fun hfit => h.bound ⟨hfit.tolerance, hfit.ordered, fun r hr => ?_⟩ }
  obtain ⟨r', hr', heq⟩ := hlines r hr
  exact heq ▸ hfit.accepted r' hr'

/-- The rows of a document on a purchase order have distinct indices. -/
theorem AllocationsOk.nodup_index (h : AllocationsOk E db) (documentId purchaseOrderId : Uuid) :
    ((db.ownAllocations documentId purchaseOrderId).map (·.invoiceLineIndex)).Nodup := by
  have hsub : (db.ownAllocations documentId purchaseOrderId).Sublist db.allocations :=
    List.filter_sublist.trans List.filter_sublist
  have hkeys : ((db.ownAllocations documentId purchaseOrderId).map (·.key)).Nodup :=
    h.keys.sublist (hsub.map _)
  have hkey : (db.ownAllocations documentId purchaseOrderId).map (·.key) =
      ((db.ownAllocations documentId purchaseOrderId).map (·.invoiceLineIndex)).map
        fun index => (documentId, purchaseOrderId, index) := by
    rw [List.map_map]
    refine List.map_congr_left fun a ha => ?_
    obtain ⟨hmem, hdoc⟩ := List.mem_filter.1 ha
    obtain ⟨-, hpo⟩ := List.mem_filter.1 hmem
    simp only [ThreeWayAllocation.key, Function.comp_apply, of_decide_eq_true hdoc, of_decide_eq_true hpo]
  exact .of_map _ (hkey ▸ hkeys)

variable {rows : NewRows}

theorem allocationsOf_insert (purchaseOrderId : Uuid) : (db.insert rows).allocationsOf purchaseOrderId =
    db.allocationsOf purchaseOrderId ++ rows.allocations.filter (·.purchaseOrderId = purchaseOrderId) :=
  List.filter_append ..

end

section

variable {E : MatchingEnv} {db : Tables} {c : MatchCall} {x : ExtractionRun} {b : Option BuiltContext}
  {run : MatchRun} {rows : NewRows}

/-- The allocations of a run carry its document, its purchase order and its id. -/
theorem RunRows.mem (h : RunRows E db c x b run rows) {a : ThreeWayAllocation} (ha : a ∈ rows.allocations) :
    a.matchRunId = run.id ∧ a.documentId = c.documentId ∧ a.purchaseOrderId = c.purchaseOrder.id := by
  obtain ⟨drafts, ids, ⟨-, -, id, found, -, rfl, -⟩, hrows⟩ := h.decided
  obtain ⟨d, -, hd⟩ := Lists.exists_of_forall₂_mem (newAllocations_spec hrows) ha
  exact ⟨hd.matchRun, hd.document, hd.order⟩

theorem RunRows.twoWay (h : RunRows E db c x none run rows) : rows.allocations = [] := by
  obtain ⟨drafts, ids, ⟨-, -, id, found, hfound, -, rfl⟩, hrows⟩ := h.decided
  obtain rfl := Option.some.inj hfound
  exact List.forall₂_nil_left_iff.1 (newAllocations_spec hrows)

theorem RunRows.mode_ne (h : RunRows E db c x none run rows) : run.matchingMode ≠ .threeWay := by
  obtain ⟨drafts, ids, ⟨-, hcontext, id, found, -, rfl, -⟩, -⟩ := h.decided
  change c.mode ≠ .threeWay
  rw [show c.mode = .twoWay from hcontext]
  decide

theorem RunRows.threeWay (h : RunRows E db c x b run rows) (hne : rows.allocations ≠ []) :
    c.mode = .threeWay ∧ run.decision = .matched ∧ db.ownAllocations c.documentId c.purchaseOrder.id = [] := by
  cases b with
  | none => exact absurd h.twoWay hne
  | some b =>
    obtain ⟨drafts, ids, ⟨-, ⟨hmode, receipts, hinit, rfl⟩, id, found, hfound, rfl, rfl⟩, hrows⟩ := h.decided
    have hdrafts : found.2 ≠ [] := by
      intro hnil
      have hstored := newAllocations_spec hrows
      rw [hnil] at hstored
      exact hne (List.forall₂_nil_left_iff.1 hstored)
    obtain ⟨hnil, hm, -⟩ := drafts_of_decision hfound hdrafts
    exact ⟨hmode, hm, hnil⟩

theorem RunRows.line (h : RunRows E db c x b run rows) {row : ThreeWayAllocation} (hrow : row ∈ rows.allocations) :
    row.purchaseOrderLineId ∈ c.purchaseOrder.lines.map (·.id) := by
  cases b with
  | none =>
    rw [h.twoWay] at hrow
    cases hrow
  | some b =>
    obtain ⟨drafts, ids, ⟨-, ⟨-, receipts, -, rfl⟩, id, found, hfound, rfl, rfl⟩, hrows⟩ := h.decided
    obtain ⟨-, -, l, line, q, u, t, hline, hid, -⟩ := backed_of_decision hfound hrows hrow
    exact List.mem_map.2 ⟨line, hline, hid⟩

/-- Its rows stay within what was received when it looked, and that within what is ordered. -/
theorem RunRows.within (h : RunRows E db c x b run rows) (hok : AllocationsOk E db) (hfit : QuantitiesFit E db)
    {row : ThreeWayAllocation} (hrow : row ∈ rows.allocations) :
    ∃ receipts, receipts <+: db.receiptsOf c.purchaseOrder.id ∧
      ∃ line ∈ c.purchaseOrder.lines, line.id = row.purchaseOrderLineId ∧
        allocatedQuantity (db.allocationsOf c.purchaseOrder.id ++ rows.allocations) line.id ≤
          activeQuantity receipts line.id + E.threeWayPolicy.quantityAbsolute.toRat ∧
        activeQuantity receipts line.id ≤
          line.orderedQuantity.toRat + E.threeWayPolicy.quantityAbsolute.toRat := by
  cases b with
  | none =>
    rw [h.twoWay] at hrow
    cases hrow
  | some b =>
    obtain ⟨drafts, ids, ⟨hcall, ⟨-, receipts, hinit, rfl⟩, id, found, hfound, rfl, rfl⟩, hrows⟩ := h.decided
    have hreceipts : ∀ r ∈ receipts, ∀ l ∈ r.lines, E.Column l.acceptedQuantity.toRat := fun r hr =>
      hfit.accepted r (List.mem_filter.1 (hinit.subset hr)).1
    have hallocations : ∀ a ∈ db.allocationsOf c.purchaseOrder.id, E.Column a.allocatedQuantity.toRat :=
      fun a ha p hp => ⟨(hfit.tolerance p hp).1, hok.columns a (List.mem_filter.1 ha).1⟩
    exact ⟨receipts, hinit, allocated_le_of_decision hfit.tolerance (hfit.ordered _ hcall.1) hreceipts hallocations
      (hok.bound hfit _ hcall.1) hfound hrows hrow⟩

theorem RunRows.reserved (h : RunRows E db c x b run rows) (hok : AllocationsOk E db)
    (hmode : run.matchingMode = .threeWay) (hm : run.decision = .matched) :
    run.extractionRunId = x.id ∧ Reserved x.invoice run.result.lineAssignments
      (db.ownAllocations run.documentId run.purchaseOrderId ++ rows.allocations) ∧
      db.ownAllocations run.documentId run.purchaseOrderId ++ rows.allocations ≠ [] := by
  cases b with
  | none => exact absurd hmode h.mode_ne
  | some b =>
    obtain ⟨drafts, ids, ⟨-, ⟨-, receipts, -, rfl⟩, id, found, hfound, rfl, rfl⟩, hrows⟩ := h.decided
    exact ⟨rfl, reserved_of_decision hfound hm (hok.nodup_index _ _) hrows⟩

/-- Where the run stores nothing, or the document or the purchase order is another, nothing is added. -/
theorem RunRows.ownAllocations_insert (h : RunRows E db c x b run rows) (documentId purchaseOrderId : Uuid) :
    (db.insert rows).ownAllocations documentId purchaseOrderId = db.ownAllocations documentId purchaseOrderId ++
      if documentId = c.documentId ∧ purchaseOrderId = c.purchaseOrder.id then rows.allocations else [] := by
  rw [Tables.ownAllocations, allocationsOf_insert, currentAllocations, List.filter_append]
  congr 1
  rw [List.filter_filter]
  split_ifs with heq
  · obtain ⟨rfl, rfl⟩ := heq
    refine List.filter_eq_self.2 fun a ha => ?_
    simp [(h.mem ha).2]
  · refine List.filter_eq_nil_iff.2 fun a ha hboth => heq ?_
    obtain ⟨-, hdoc, hpo⟩ := h.mem ha
    obtain ⟨hd, hp⟩ := Bool.and_eq_true_iff.1 hboth
    exact ⟨(of_decide_eq_true hd).symm.trans hdoc, (of_decide_eq_true hp).symm.trans hpo⟩

/-- On a line it allocates, a run stays within what is received and what is ordered. -/
theorem RunRows.touched (h : RunRows E db c x b run rows) (hok : AllocationsOk E db) (hfit : QuantitiesFit E db)
    {po : PurchaseOrder} (hpo : po ∈ db.purchaseOrders) {l : PurchaseOrderLine} (hl : l ∈ po.lines) {row : ThreeWayAllocation}
    (hrow : row ∈ rows.allocations) (hid : row.purchaseOrderId = po.id) (hline : row.purchaseOrderLineId = l.id) :
    allocatedQuantity ((db.insert rows).allocationsOf po.id) l.id ≤
        activeQuantity (db.receiptsOf po.id) l.id + E.threeWayPolicy.quantityAbsolute.toRat ∧
      allocatedQuantity ((db.insert rows).allocationsOf po.id) l.id ≤
        l.orderedQuantity.toRat + 2 * E.threeWayPolicy.quantityAbsolute.toRat := by
  obtain ⟨drafts, ids, hdecided, -⟩ := h.decided
  obtain rfl : c.purchaseOrder = po :=
    List.inj_on_of_nodup_map hok.orderIds hdecided.call.1 hpo ((h.mem hrow).2.2.symm.trans hid)
  obtain ⟨receipts, hinit, line, hmem, hlid, hreceived, hordered⟩ := h.within hok hfit hrow
  obtain rfl : line = l := List.inj_on_of_nodup_map c.purchaseOrder.line_ids hmem hl (hlid.trans hline)
  have hself : rows.allocations.filter (·.purchaseOrderId = c.purchaseOrder.id) = rows.allocations :=
    List.filter_eq_self.2 fun a ha => by simp [(h.mem ha).2.2]
  have hactive := activeQuantity_le_of_prefix hinit line.id
  rw [allocationsOf_insert, hself]
  exact ⟨by linarith, by linarith⟩

theorem RunRows.bound (h : RunRows E db c x b run rows) (hok : AllocationsOk E db) (hfit : QuantitiesFit E db)
    {po : PurchaseOrder} (hpo : po ∈ db.purchaseOrders) {l : PurchaseOrderLine} (hl : l ∈ po.lines) :
    allocatedQuantity ((db.insert rows).allocationsOf po.id) l.id ≤
      l.orderedQuantity.toRat + 2 * E.threeWayPolicy.quantityAbsolute.toRat := by
  by_cases htouched : ∃ row ∈ rows.allocations, row.purchaseOrderId = po.id ∧ row.purchaseOrderLineId = l.id
  · obtain ⟨row, hrow, hid, hline⟩ := htouched
    exact (h.touched hok hfit hpo hl hrow hid hline).2
  · have hzero : allocatedQuantity (rows.allocations.filter (·.purchaseOrderId = po.id)) l.id = 0 := by
      refine allocatedQuantity_eq_zero fun hmem => htouched ?_
      obtain ⟨row, hrow, hline⟩ := List.mem_map.1 hmem
      obtain ⟨hrow, hid⟩ := List.mem_filter.1 hrow
      exact ⟨row, hrow, of_decide_eq_true hid, hline⟩
    rw [allocationsOf_insert, allocatedQuantity_append, hzero, add_zero]
    exact hok.bound hfit po hpo l hl

/-- A document that has allocations on the purchase order gets no more. -/
theorem RunRows.fresh (h : RunRows E db c x b run rows) {row : ThreeWayAllocation} (hrow : row ∈ rows.allocations)
    {a : ThreeWayAllocation} (ha : a ∈ db.allocations) (hdoc : a.documentId = row.documentId) :
    a.purchaseOrderId ≠ row.purchaseOrderId := by
  intro hpo
  obtain ⟨-, hrowdoc, hrowpo⟩ := h.mem hrow
  obtain ⟨-, -, hnil⟩ := h.threeWay (List.ne_nil_of_mem hrow)
  have hmem : a ∈ db.ownAllocations c.documentId c.purchaseOrder.id := by
    refine List.mem_filter.2 ⟨List.mem_filter.2 ⟨ha, ?_⟩, ?_⟩
    · exact decide_eq_true (hpo.trans hrowpo)
    · exact decide_eq_true (hdoc.trans hrowdoc)
  rw [hnil] at hmem
  cases hmem

theorem RunRows.oneRun (h : RunRows E db c x b run rows) (hok : AllocationsOk E db) :
    ∀ a ∈ (db.insert rows).allocations, ∀ a' ∈ (db.insert rows).allocations, a.documentId = a'.documentId →
      a.purchaseOrderId = a'.purchaseOrderId → a.matchRunId = a'.matchRunId := by
  intro a ha a' ha' hdoc hpo
  rcases List.mem_append.1 ha with hold | hnew <;> rcases List.mem_append.1 ha' with hold' | hnew'
  · exact hok.oneRun a hold a' hold' hdoc hpo
  · exact absurd hpo (h.fresh hnew' hold hdoc)
  · exact absurd hpo.symm (h.fresh hnew hold' hdoc.symm)
  · exact (h.mem hnew).1.trans (h.mem hnew').1.symm

theorem RunRows.reserved_insert (h : RunRows E db c x b run rows) (hok : AllocationsOk E db) {r : MatchRun}
    (hr : r ∈ (db.insert rows).runs) (hmode : r.matchingMode = .threeWay) (hm : r.decision = .matched) :
    ∃ y ∈ db.extractions, y.id = r.extractionRunId ∧
      Reserved y.invoice r.result.lineAssignments
        ((db.insert rows).ownAllocations r.documentId r.purchaseOrderId) ∧
      (db.insert rows).ownAllocations r.documentId r.purchaseOrderId ≠ [] := by
  rw [h.ownAllocations_insert]
  rcases List.mem_append.1 hr with hold | hnew
  · obtain ⟨y, hy, hid, hreserved, hne⟩ := hok.reserved r hold hmode hm
    have hnil : (if r.documentId = c.documentId ∧ r.purchaseOrderId = c.purchaseOrder.id
        then rows.allocations else []) = [] := by
      split_ifs with heq
      · by_contra hrows
        refine hne ?_
        rw [heq.1, heq.2]
        exact (h.threeWay hrows).2.2
      · rfl
    rw [hnil, List.append_nil]
    exact ⟨y, hy, hid, hreserved, hne⟩
  · rw [h.runs] at hnew
    obtain rfl := List.mem_singleton.1 hnew
    obtain ⟨drafts, ids, hdecided, -⟩ := h.decided
    have hcall : r.documentId = c.documentId ∧ r.purchaseOrderId = c.purchaseOrder.id := by
      obtain ⟨-, -, id, found, -, rfl, -⟩ := hdecided
      exact ⟨rfl, rfl⟩
    rw [if_pos hcall]
    obtain ⟨hid, hreserved⟩ := h.reserved hok hmode hm
    exact ⟨x, hdecided.call.2, hid.symm, hreserved⟩

theorem AllocationsOk.insert (hok : AllocationsOk E db) (h : RunRows E db c x b run rows)
    (haccepts : db.Accepts rows) : AllocationsOk E (db.insert rows) := by
  refine ⟨hok.orderIds, hok.extractionIds, hok.receiptIds, haccepts.allocationKeys, ?_, ?_,
    fun hfit po hpo l hl => h.bound hok ⟨hfit.tolerance, hfit.ordered, hfit.accepted⟩ hpo hl, h.oneRun hok,
    fun r hr => h.reserved_insert hok hr⟩
  · intro a ha
    rcases List.mem_append.1 ha with hold | hnew
    · exact hok.orders a hold
    · obtain ⟨drafts, ids, hdecided, -⟩ := h.decided
      rw [(h.mem hnew).2.2]
      exact List.mem_map_of_mem hdecided.call.1
  · intro a ha
    rcases List.mem_append.1 ha with hold | hnew
    · exact hok.columns a hold
    · obtain ⟨drafts, ids, -, hrows⟩ := h.decided
      obtain ⟨d, -, hstored⟩ := Lists.exists_of_forall₂_mem (newAllocations_spec hrows) hnew
      exact hstored.column

end

theorem AllocationsOk.insert_nil {E : MatchingEnv} {db : Tables} {rows : NewRows} (h : AllocationsOk E db)
    (hruns : rows.runs = []) (hallocations : rows.allocations = []) : AllocationsOk E (db.insert rows) := by
  have hr : (db.insert rows).runs = db.runs := by simp [Tables.insert, hruns]
  have ha : (db.insert rows).allocations = db.allocations := by simp [Tables.insert, hallocations]
  have hof : ∀ p, (db.insert rows).allocationsOf p = db.allocationsOf p := fun p => by
    rw [Tables.allocationsOf, ha]; rfl
  refine ⟨h.orderIds, h.extractionIds, h.receiptIds, ha ▸ h.keys, ha ▸ h.orders, ha ▸ h.columns, ?_, ha ▸ h.oneRun,
    ?_⟩
  · intro hfit po hpo l hl
    rw [hof]
    exact h.bound ⟨hfit.tolerance, hfit.ordered, hfit.accepted⟩ po hpo l hl
  · intro r hmem
    rw [hr] at hmem
    simp only [Tables.ownAllocations, hof]
    exact h.reserved r hmem

section

variable {E : MatchingEnv} {w w' : MatchWorld} {a : MatchAct} {i : ℕ} {db : Tables} {held : Option Uuid}

theorem Keeps.order (po : PurchaseOrder) :
    Keeps held db { db with purchaseOrders := db.purchaseOrders ++ [po] } :=
  { Keeps.refl held db with orders := List.subset_append_left _ _ }

theorem Keeps.extraction (x : ExtractionRun) : Keeps held db { db with extractions := db.extractions ++ [x] } :=
  { Keeps.refl held db with extractions := List.subset_append_left _ _ }

theorem Keeps.receipt (r : GoodsReceipt) : Keeps held db { db with receipts := db.receipts ++ [r] } :=
  { Keeps.refl held db with
    receiptKeys := List.map_subset _ (List.subset_append_left _ _)
    receipts := fun p _ => by
      simp only [Tables.receiptsOf, List.filter_append]
      exact List.prefix_append _ _ }

/-- A reversal leaves the ids and the purchase order of a receipt. -/
theorem reverse_frame (receiptId : Uuid) (reversal : GoodsReceiptReversal) (r : GoodsReceipt) :
    (if r.id = receiptId then r.reverse reversal else r).id = r.id ∧
      (if r.id = receiptId then r.reverse reversal else r).purchaseOrderId = r.purchaseOrderId := by
  split_ifs
  · exact ⟨rfl, rfl⟩
  · exact ⟨rfl, rfl⟩

/-- A reversal touches the receipts of one purchase order only. -/
theorem receiptsOf_reversal {receiptId purchaseOrderId p : Uuid} {reversal : GoodsReceiptReversal}
    (hids : (db.receipts.map (·.id)).Nodup)
    (hreceipt : (receiptId, purchaseOrderId) ∈ db.receipts.map fun r => (r.id, r.purchaseOrderId))
    (hne : p ≠ purchaseOrderId) :
    ((db.receipts.map fun r => if r.id = receiptId then r.reverse reversal else r).filter
      (·.purchaseOrderId = p)) = db.receiptsOf p := by
  obtain ⟨r, hr, hkey⟩ := List.mem_map.1 hreceipt
  obtain ⟨rfl, rfl⟩ := Prod.mk.inj hkey
  simp only [Tables.receiptsOf, List.filter_map, Function.comp_def, reverse_frame]
  have hself : ∀ r' ∈ db.receipts.filter (·.purchaseOrderId = p),
      (if r'.id = r.id then r'.reverse reversal else r') = r' := by
    intro r' hr'
    obtain ⟨hmem, hpo⟩ := List.mem_filter.1 hr'
    refine if_neg fun hid => hne ?_
    rw [← of_decide_eq_true hpo, List.inj_on_of_nodup_map hids hmem hr hid]
  rw [List.map_congr_left hself, List.map_id']

theorem Keeps.reversal {receiptId purchaseOrderId : Uuid} {reversal : GoodsReceiptReversal}
    (hids : (db.receipts.map (·.id)).Nodup)
    (hreceipt : (receiptId, purchaseOrderId) ∈ db.receipts.map fun r => (r.id, r.purchaseOrderId))
    (hheld : held ≠ some purchaseOrderId) :
    Keeps held db { db with
      receipts := db.receipts.map fun r => if r.id = receiptId then r.reverse reversal else r } := by
  refine { Keeps.refl held db with receiptKeys := ?_, receipts := fun p hp => ?_ }
  · simp only [List.map_map, Function.comp_def, reverse_frame]
    exact List.Subset.refl _
  · rw [Tables.receiptsOf, Tables.receiptsOf]
    rw [receiptsOf_reversal hids hreceipt fun heq => hheld (heq ▸ hp)]
    exact List.prefix_refl _

/-- Only the holder of the row of a purchase order stores allocations for it. -/
theorem Keeps.insert (h : AllocationInv E w) {key : Option MatchKey} {visible : List RiskFeatureRecord}
    {rows : NewRows} (hi : w.txns i = some (.ready key visible rows)) {j : ℕ} {phase : TxnPhase} (hji : j ≠ i)
    (hj : w.txns j = some phase) : Keeps phase.holds w.db (w.db.insert rows) := by
  refine { Keeps.refl phase.holds w.db with allocations := fun p hp => ?_ }
  have hready := h.txns i _ hi
  rw [allocationsOf_insert]
  suffices hnil : rows.allocations.filter (·.purchaseOrderId = p) = [] by rw [hnil, List.append_nil]
  refine List.filter_eq_nil_iff.2 fun a ha hid => ?_
  cases key with
  | none =>
    rw [hready.2] at ha
    cases ha
  | some key =>
    obtain ⟨c, x, b, run, rfl, hrows⟩ := hready
    obtain ⟨drafts, ids, hdecided, -⟩ := hrows.decided
    obtain ⟨hmode, -⟩ := hrows.threeWay (List.ne_nil_of_mem ha)
    obtain rfl : c.purchaseOrder.id = p := (hrows.mem ha).2.2.symm.trans (of_decide_eq_true hid)
    have hlock : w.locks c.purchaseOrder.id = some i := by
      refine h.locks i _ _ hi ?_
      simp only [TxnPhase.holds, hdecided.key.1, hdecided.key.2, hmode, if_true]
    exact hji (Option.some.inj ((h.locks j phase _ hj hp).symm.trans hlock))

theorem AllocationInv.step (h : AllocationInv E w) (hstep : MatchMoves E w a w') : AllocationInv E w' := by
  cases hstep with
  | order hfresh hpo =>
    exact ⟨h.tables.order hfresh hpo, fun j ph hj => (h.txns j ph hj).mono (.order _), h.locks⟩
  | extraction hfresh =>
    exact ⟨h.tables.extraction hfresh, fun j ph hj => (h.txns j ph hj).mono (.extraction _), h.locks⟩
  | receipt _ haccepts =>
    have hids := Lists.nodup_map_snoc h.tables.receiptIds haccepts.2.2.1
    exact ⟨h.tables.withReceipts hids fun r hr => ⟨r, List.mem_append_left _ hr, rfl⟩,
      fun j ph hj => (h.txns j ph hj).mono (.receipt _), h.locks⟩
  | lockReceipt hfree =>
    refine (h.lock hfree).enter trivial fun p hp => ?_
    obtain rfl := Option.some.inj hp
    exact Function.update_self ..
  | @lockReversal i r reversal hr _ hfree =>
    refine (h.lock hfree).enter (List.mem_map_of_mem hr) fun p hp => ?_
    obtain rfl := Option.some.inj hp
    exact Function.update_self ..
  | lockMatch hpo hfree =>
    refine (h.lock hfree).enter hpo fun p hp => ?_
    obtain rfl := Option.some.inj hp
    exact Function.update_self ..
  | enterMatch hpo => exact h.enter hpo fun p hp => by cases hp
  | @read i phase phase' hi hread =>
    obtain ⟨hok, hholds⟩ := hread.ok (h.txns i phase hi)
    exact h.enter hok fun p hp => h.locks i phase p hi (hholds p hp)
  | finish => exact h.finish h.tables fun _ _ _ _ => .refl _ _
  | rollback => exact h.rollback
  | @commit i key visible rows _ hi haccepts =>
    refine h.finish ?_ fun j phase hji hj => .insert h hi hji hj
    have hready := h.txns i _ hi
    cases key with
    | none => exact h.tables.insert_nil hready.1 hready.2
    | some key =>
      obtain ⟨c, x, b, run, -, hrows⟩ := hready
      exact h.tables.insert hrows haccepts
  | commitReceipt _ haccepts =>
    have hids := Lists.nodup_map_snoc h.tables.receiptIds haccepts.2.2.1
    exact h.finish (h.tables.withReceipts hids fun r hr => ⟨r, List.mem_append_left _ hr, rfl⟩) fun _ _ _ _ => .receipt _
  | @commitReversal i receiptId purchaseOrderId reversal hi =>
    refine h.finish (h.tables.withReceipts ?_ fun r hr => ⟨_, List.mem_map_of_mem hr, ?_⟩) fun j phase hji hj => ?_
    · simp only [List.map_map, Function.comp_def, reverse_frame]
      exact h.tables.receiptIds
    · split_ifs
      · rfl
      · rfl
    · refine .reversal h.tables.receiptIds (h.txns i _ hi) fun hheld => hji ?_
      exact Option.some.inj ((h.locks j phase _ hj hheld).symm.trans (h.locks i _ _ hi rfl))

theorem allocationInv_of_steps {acts : List MatchAct} (h : Steps (MatchWorld.next E) .initial acts w) :
    AllocationInv E w :=
  h.invariant (fun _ _ _ hs hn => hs.step (matchMoves_of_next hn)) (allocationInv_initial E)

/-- What a step does to the allocations: nothing, or it commits a matched run that adds its own. -/
theorem AllocationInv.step_allocations (h : AllocationInv E w) (hstep : MatchMoves E w a w') :
    w'.db.allocations = w.db.allocations ∨
      ∃ c x b run rows, RunRows E w.db c x b run rows ∧ w.db.Accepts rows ∧ w'.db = w.db.insert rows ∧
        rows.allocations ≠ [] := by
  cases hstep with
  | @commit i key visible rows _ hi haccepts =>
    have hready := h.txns i _ hi
    by_cases hne : rows.allocations = []
    · exact .inl (by simp [Tables.insert, hne])
    · cases key with
      | none => exact absurd hready.2 hne
      | some key =>
        obtain ⟨c, x, b, run, -, hrows⟩ := hready
        exact .inr ⟨c, x, b, run, rows, hrows, haccepts, rfl, hne⟩
  | _ => exact .inl rfl

theorem prefix_of_step (h : AllocationInv E w) (hstep : MatchMoves E w a w') :
    w.db.allocations <+: w'.db.allocations := by
  rcases h.step_allocations hstep with heq | ⟨c, x, b, run, rows, -, -, heq, -⟩
  · rw [heq]
  · rw [heq]
    exact List.prefix_append _ _

end

/-- Over every interleaving of matches, receipts, reversals and extractions, as long as the quantities fit their columns:
on no line more is allocated than ordered, up to twice the tolerance, and where a match allocates, the line has no
more than is received, up to the tolerance. The allocations of a document on a purchase order come from one run. -/
theorem allocations_bounded (E : MatchingEnv) {acts : List MatchAct} {w : MatchWorld}
    (h : Steps (MatchWorld.next E) .initial acts w) :
    (QuantitiesFit E w.db → ∀ po ∈ w.db.purchaseOrders, ∀ l ∈ po.lines, allocatedQuantity (w.db.allocationsOf po.id) l.id ≤
      l.orderedQuantity.toRat + 2 * E.threeWayPolicy.quantityAbsolute.toRat) ∧
    (QuantitiesFit E w.db → ∀ a w', w.next E a = some w' → ∀ po ∈ w'.db.purchaseOrders, ∀ l ∈ po.lines,
      (∃ row ∈ w'.db.allocationsOf po.id, row ∉ w.db.allocationsOf po.id ∧ row.purchaseOrderLineId = l.id) →
        allocatedQuantity (w'.db.allocationsOf po.id) l.id ≤
          activeQuantity (w'.db.receiptsOf po.id) l.id + E.threeWayPolicy.quantityAbsolute.toRat) ∧
    ∀ a ∈ w.db.allocations, ∀ a' ∈ w.db.allocations, a.documentId = a'.documentId →
      a.purchaseOrderId = a'.purchaseOrderId → a.matchRunId = a'.matchRunId := by
  have hinv := allocationInv_of_steps h
  refine ⟨hinv.tables.bound, fun hfit a w' hnext po hpo l hl ⟨row, hrow, hnew, hline⟩ => ?_, hinv.tables.oneRun⟩
  rcases hinv.step_allocations (matchMoves_of_next hnext) with heq | ⟨c, x, b, run, rows, hrows, -, heq, -⟩
  · rw [Tables.allocationsOf, heq] at hrow
    exact absurd hrow hnew
  · rw [heq] at hpo hrow ⊢
    rw [allocationsOf_insert, List.mem_append] at hrow
    obtain ⟨hmem, hid⟩ := List.mem_filter.1 (hrow.resolve_left hnew)
    exact (hrows.touched hinv.tables hfit hpo hl hmem (of_decide_eq_true hid) hline).1

/-- Over every such interleaving: the allocations of the document and the purchase order of a matched
three-way run are those of its assignments; a step that commits no matched run leaves the allocations as
they are; and an allocation is never changed or removed. -/
theorem allocations_immutable (E : MatchingEnv) {acts : List MatchAct} {w : MatchWorld}
    (h : Steps (MatchWorld.next E) .initial acts w) :
    (∀ r ∈ w.db.runs, r.matchingMode = .threeWay → r.decision = .matched →
      ∃ x, w.db.extractions.find? (·.id = r.extractionRunId) = some x ∧
        Reserved x.invoice r.result.lineAssignments (w.db.ownAllocations r.documentId r.purchaseOrderId)) ∧
    (∀ a w', w.next E a = some w' → (∀ r ∈ w'.db.runs, r ∉ w.db.runs → r.decision = .needsReview) →
      w'.db.allocations = w.db.allocations) ∧
    ∀ acts' w', Steps (MatchWorld.next E) w acts' w' → w.db.allocations <+: w'.db.allocations := by
  have hinv := allocationInv_of_steps h
  refine ⟨fun r hr hmode hm => ?_, fun a w' hnext hreview => ?_, fun acts' w' hrun => ?_⟩
  · obtain ⟨x, hx, hid, hreserved, -⟩ := hinv.tables.reserved r hr hmode hm
    rw [← hid]
    exact ⟨x, Lists.find?_key hinv.tables.extractionIds hx, hreserved⟩
  · rcases hinv.step_allocations (matchMoves_of_next hnext) with heq | ⟨c, x, b, run, rows, hrows, hacc, heq, hne⟩
    · exact heq
    · have hrun : run ∈ rows.runs := by simp [hrows.runs]
      have hfresh : run ∉ w.db.runs := fun hmem => (hacc.runs run hrun).1 (List.mem_map_of_mem hmem)
      have hneeds := hreview run (by rw [heq]; exact List.mem_append_right _ hrun) hfresh
      rw [(hrows.threeWay hne).2.1] at hneeds
      cases hneeds
  · refine hrun.relates (R := fun s t => s.db.allocations <+: t.db.allocations)
      (fun _ _ _ hs hn => hs.step (matchMoves_of_next hn)) (fun _ => List.prefix_refl _)
      (fun _ _ _ => List.IsPrefix.trans) (fun _ _ _ hs hn => prefix_of_step hs (matchMoves_of_next hn)) hinv

def tapEnv : MatchingEnv where
  decimals := .standard
  text := asciiTextOps
  dumps := ⟨byteChars.sha256, DateTime.utcText, fun p => .obj [("version", .str p.version)]⟩
  repr := byteChars.repr
  similarity a b := if a = b then ⟨false, 1, 0⟩ else Decimal.zero
  policy := .default
  threeWayPolicy := .default
  riskPolicy := .default

def tapPurchase : PurchaseOrder where
  id := Uuid.ofNat 1
  externalPoNumber := "PO-1"
  vendorName := some "Acme"
  currency := "EUR"
  createdAt := .first
  lines :=
    [{ id := Uuid.ofNat 2
       purchaseOrderId := Uuid.ofNat 1
       lineNumber := "1"
       description := "Tap"
       orderedQuantity := ⟨false, 1, 0⟩
       unitPrice := ⟨false, 10, 0⟩
       lineTotal := none }]
  line_ids := List.nodup_singleton _

def tapExtraction (id documentId : ℕ) : ExtractionRun where
  id := Uuid.ofNat id
  documentId := Uuid.ofNat documentId
  strategy := 0
  invoice :=
    { filterInvoice with
      subtotal := printed ⟨false, 10, 0⟩ "10"
      total := printed ⟨false, 10, 0⟩ "10"
      lineItems := [filterLine "Tap"] }

def tapReceipt : GoodsReceipt where
  id := Uuid.ofNat 3
  purchaseOrderId := tapPurchase.id
  externalReceiptNumber := "GR-1"
  receivedAt := .first
  requestFingerprint := ""
  lines := [⟨Uuid.ofNat 2, ⟨false, 1, 0⟩, by norm_num [Decimal.toRat, Decimal.int]⟩]
  reversal := none
  line_ids := List.nodup_singleton _

/-- The tap is ordered, received and billed, and the invoice is matched three-way. -/
def tapActs : List MatchAct :=
  [.createOrder tapPurchase, .extract (tapExtraction 5 4), .confirmReceipt tapReceipt,
    .beginMatch 0 (Uuid.ofNat 4) tapPurchase.id .threeWay, .readExtraction 0, .readReceipts 0, .readAllocations 0,
    .searchPrior 0, .searchExisting 0, .decide 0 (Uuid.ofNat 6),
    .assess 0 (fun n => Uuid.ofNat (10 + n)) (Uuid.ofNat 7) (Uuid.ofNat 8) .first, .commit 0]

theorem tapActs_run : ∃ w, Steps (MatchWorld.next tapEnv) .initial tapActs w ∧
    w.db.allocations.length = 1 ∧ w.db.runs.map (·.decision) = [.matched] := by
  have hexec : (exec (MatchWorld.next tapEnv) .initial tapActs).map
      (fun w => (w.db.allocations.length, w.db.runs.map (·.decision))) = some (1, [.matched]) := by
    decide +kernel
  obtain ⟨w, hw, heq⟩ := Option.map_eq_some_iff.1 hexec
  obtain ⟨hallocations, hruns⟩ := Prod.mk.inj heq
  exact ⟨w, .of_exec hw, hallocations, hruns⟩

theorem column_one {d : Decimal} (h : d.toRat = 1) : tapEnv.Column d.toRat := by
  intro p hp
  obtain rfl : (28 : ℕ) = p := Option.some.inj hp
  exact ⟨le_rfl, 10 ^ 8, by norm_num, by norm_num [h]⟩

theorem allocations_bounded_taps : ∃ w, Steps (MatchWorld.next tapEnv) .initial tapActs w ∧
    w.db.allocations.length = 1 ∧ QuantitiesFit tapEnv w.db ∧
    ∀ po ∈ w.db.purchaseOrders, ∀ l ∈ po.lines, allocatedQuantity (w.db.allocationsOf po.id) l.id ≤
      l.orderedQuantity.toRat + 2 * tapEnv.threeWayPolicy.quantityAbsolute.toRat := by
  have hexec : (exec (MatchWorld.next tapEnv) .initial tapActs).map (fun w => (w.db.allocations.length,
      w.db.purchaseOrders.flatMap (·.lines.map (·.orderedQuantity)),
      w.db.receipts.flatMap (·.lines.map (·.acceptedQuantity)))) =
        some (1, [⟨false, 1, 0⟩], [⟨false, 1, 0⟩]) := by decide +kernel
  obtain ⟨w, hw, heq⟩ := Option.map_eq_some_iff.1 hexec
  obtain ⟨hlength, hrest⟩ := Prod.mk.inj heq
  obtain ⟨hordered, haccepted⟩ := Prod.mk.inj hrest
  have hrun : Steps (MatchWorld.next tapEnv) .initial tapActs w := .of_exec hw
  have hfit : QuantitiesFit tapEnv w.db := by
    refine ⟨?_, fun po hpo l hl => ?_, fun r hr l hl => ?_⟩
    · intro p hp
      obtain rfl : (28 : ℕ) = p := Option.some.inj hp
      exact ⟨le_rfl, 0, by norm_num, by decide +kernel⟩
    · have hmem : l.orderedQuantity ∈ w.db.purchaseOrders.flatMap (·.lines.map (·.orderedQuantity)) :=
        List.mem_flatMap.2 ⟨po, hpo, List.mem_map_of_mem hl⟩
      rw [hordered, List.mem_singleton] at hmem
      exact column_one (by rw [hmem]; norm_num [Decimal.toRat, Decimal.int])
    · have hmem : l.acceptedQuantity ∈ w.db.receipts.flatMap (·.lines.map (·.acceptedQuantity)) :=
        List.mem_flatMap.2 ⟨r, hr, List.mem_map_of_mem hl⟩
      rw [haccepted, List.mem_singleton] at hmem
      exact column_one (by rw [hmem]; norm_num [Decimal.toRat, Decimal.int])
  exact ⟨w, hrun, hlength, hfit, (allocations_bounded tapEnv hrun).1 hfit⟩

theorem allocations_immutable_taps : ∃ w, Steps (MatchWorld.next tapEnv) .initial tapActs w ∧
    w.db.runs.map (·.decision) = [.matched] ∧
    ∀ r ∈ w.db.runs, r.matchingMode = .threeWay → r.decision = .matched →
      ∃ x, w.db.extractions.find? (·.id = r.extractionRunId) = some x ∧
        Reserved x.invoice r.result.lineAssignments (w.db.ownAllocations r.documentId r.purchaseOrderId) := by
  obtain ⟨w, hrun, -, hruns⟩ := tapActs_run
  exact ⟨w, hrun, hruns, (allocations_immutable tapEnv hrun).1⟩

end InvoiceOps
