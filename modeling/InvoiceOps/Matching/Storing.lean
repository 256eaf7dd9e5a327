import InvoiceOps.Matching.Idempotence
import InvoiceOps.Matching.Seating

/-! A three-way match meets its tables (`matching/service.py`, `models.py`). The engine asks for quantities that are not
negative, the column of an allocation for quantities that are positive once they are stored: a line of quantity zero is
matched, and then refused by the database. Nothing else about the allocations can be refused. -/

namespace InvoiceOps

open Calendar StateMachine GreedyMatching

/-- The coefficient of a value at eight decimals, halves rounded away from zero. -/
def roundedCoeff (d : Decimal) : ℕ :=
  if -8 ≤ d.exp then d.coeff * 10 ^ (d.exp + 8).toNat
  else (2 * d.coeff + 10 ^ (-8 - d.exp).toNat) / (2 * 10 ^ (-8 - d.exp).toNat)

/-- A value as a `Numeric(24, 8)` column stores it; the database raises when it has too many digits. -/
def roundedColumn (d : Decimal) : Option Decimal :=
  if roundedCoeff d < 10 ^ 24 then some ⟨d.neg, roundedCoeff d, -8⟩ else none

/-- A quantity is stored, as a positive one. -/
def StoredPositive (q : Decimal) : Prop := ∃ v, roundedColumn q = some v ∧ 0 < v.toRat

def RiskFeatureRecord.Fits (r : RiskFeatureRecord) : Prop :=
  (∀ v ∈ r.normalizedVendor, v.length ≤ 255) ∧ (∀ n ∈ r.normalizedInvoiceNumber, n.length ≤ 255) ∧
    (∀ c ∈ r.currency, c.length ≤ 3) ∧ ∀ t ∈ r.total, (roundedColumn t).isSome

instance (r : RiskFeatureRecord) : Decidable r.Fits :=
  inferInstanceAs (Decidable ((∀ v ∈ r.normalizedVendor, v.length ≤ 255) ∧
    (∀ n ∈ r.normalizedInvoiceNumber, n.length ≤ 255) ∧ (∀ c ∈ r.currency, c.length ≤ 3) ∧
    ∀ t ∈ r.total, (roundedColumn t).isSome))

/-- What the database refuses with another error than a violated key or check is a `DataError`. -/
inductive StoringError
  | raised (e : MatchError)
  | dataError
deriving DecidableEq, Repr

def AllocationDraft.stored (d : AllocationDraft) : Option AllocationDraft :=
  (roundedColumn d.quantity).map fun q => { d with quantity := q }

section

variable (E : MatchingEnv) (db : Tables) (fresh : FreshIds) (c : MatchCall) (x : ExtractionRun)

def MatchingEnv.riskRecord (run : MatchRun) : RiskFeatureRecord :=
  featureRecord (buildFeatureSnapshot E.text.toUnicode run c.purchaseOrder x.invoice)

/-- A call that finds no run, with the columns of the database. -/
def MatchingEnv.storeRun : Except StoringError MatchServiceResult :=
  match E.decision c x (E.contextFor db c) (db.ownAllocations c.documentId c.purchaseOrder.id) with
  | none => .error (.raised .contextLookup)
  | some found =>
    let run := E.newRun c x (E.contextFor db c) fresh.runId found.1
    match found.2.mapM AllocationDraft.stored with
    | none => .error .dataError
    | some drafts =>
      match newAllocations run fresh.allocationIds drafts with
      | none => (E.recover db fresh run.key).mapError .raised
      | some allocations =>
        if (E.riskRecord c x run).Fits then
          match E.ensureRisk db run c.purchaseOrder x.invoice fresh.assessmentId with
          | none => .error (.raised .riskWindow)
          | some risk =>
            if db.Accepts (E.runRows db fresh run (E.contextFor db c) allocations risk) then
              .ok ⟨run, true, db.insert (E.runRows db fresh run (E.contextFor db c) allocations risk)⟩
            else (E.recover db fresh run.key).mapError .raised
        else .error .dataError

/-- `MatchingService.match` in three-way mode. -/
def MatchingEnv.storeMatch (documentId purchaseOrderId : Uuid) : Except StoringError MatchServiceResult :=
  match db.purchaseOrder purchaseOrderId with
  | none => .error (.raised .purchaseOrderNotFound)
  | some po =>
    match db.currentExtraction documentId with
    | none => .error (.raised .extractionNotReady)
    | some x =>
      match E.findRun db ⟨documentId, po, .threeWay⟩ x with
      | some run => (E.replay db fresh run).mapError .raised
      | none => E.storeRun db fresh ⟨documentId, po, .threeWay⟩ x

end

section

variable {d v : Decimal}

theorem roundedColumn_of_numericColumn (h : numericColumn d = some v) : roundedColumn d = some v := by
  obtain ⟨c, hc, h⟩ := Option.bind_eq_some_iff.1 h
  have hcoeff : roundedCoeff d = c := by
    unfold columnCoeff at hc
    unfold roundedCoeff
    split_ifs at hc ⊢ with hexp hdvd
    · exact Option.some.inj hc
    · obtain ⟨m, hm⟩ := hdvd
      have hpos : 0 < 10 ^ (-8 - d.exp).toNat := by positivity
      rw [hm, Nat.mul_div_cancel_left m hpos] at hc
      obtain rfl := Option.some.inj hc
      rw [hm]
      generalize 10 ^ (-8 - d.exp).toNat = n at hpos
      rw [show 2 * (n * m) + n = n + 2 * n * m by ring, Nat.add_mul_div_left _ _ (by omega),
        Nat.div_eq_of_lt (by omega), zero_add]
  rw [roundedColumn, hcoeff]
  exact h

theorem roundedCoeff_eq_zero (h : d.coeff = 0) : roundedCoeff d = 0 := by
  unfold roundedCoeff
  split_ifs
  · simp [h]
  · rw [h, Nat.div_eq_zero_iff]
    right
    have hpos : 0 < 10 ^ (-8 - d.exp).toNat := by positivity
    omega

theorem pos_of_storedPositive (h : StoredPositive d) : 0 < d.toRat := by
  obtain ⟨v, hv, hpos⟩ := h
  unfold roundedColumn at hv
  split_ifs at hv
  obtain rfl := Option.some.inj hv
  have hneg : d.neg = false := by
    by_contra hneg
    have hneg : d.neg = true := by simpa using hneg
    have hle : (Decimal.mk d.neg (roundedCoeff d) (-8)).toRat ≤ 0 := by
      simp only [Decimal.toRat, Decimal.int, hneg, if_true]
      have : (0 : ℚ) ≤ roundedCoeff d * (10 : ℚ) ^ (-8 : ℤ) := by positivity
      push_cast
      linarith
    exact absurd hpos (not_lt.2 hle)
  have hcoeff : 0 < d.coeff := by
    refine Nat.pos_of_ne_zero fun hzero => ?_
    rw [roundedCoeff_eq_zero hzero] at hpos
    simp [Decimal.toRat, Decimal.int] at hpos
  simp only [Decimal.toRat, Decimal.int, hneg]
  have hcast : (0 : ℚ) < d.coeff := by exact_mod_cast hcoeff
  have hscale : (0 : ℚ) < (10 : ℚ) ^ d.exp := by positivity
  simpa using mul_pos hcast hscale

theorem numericColumn_rounded (h : roundedColumn d = some v) : numericColumn v = some v := by
  unfold roundedColumn at h
  split_ifs at h with hlt
  obtain rfl := Option.some.inj h
  simpa [numericColumn, columnCoeff] using hlt

end

/-- The keys of the tables hold, and every run has its rows. -/
structure Tables.Sound (E : MatchingEnv) (db : Tables) : Prop where
  routing : RoutingOk E db
  contextRuns : ∀ x ∈ db.contexts, x.matchRunId ∈ db.runs.map (·.id)
  allocationIds : (db.allocations.map (·.id)).Nodup
  allocationKeys : (db.allocations.map (·.key)).Nodup

/-- The tables that every run of the services leads to. -/
theorem sound_of_service {E : MatchingEnv} {acts : List ServiceAct} {w : MatchWorld}
    (h : Steps (MatchWorld.nextService E) .initial acts w) : w.db.Sound E := by
  obtain ⟨-, hreplay, hrouting⟩ := replayInv_of_service h
  exact ⟨hrouting, hreplay.tables.contextRuns, hreplay.tables.allocationIds, hreplay.allocation.tables.keys⟩

/-- The ids a call makes up are not used yet; those of up to `n` allocations are distinct. -/
structure FreshIds.New (fresh : FreshIds) (db : Tables) (n : ℕ) : Prop where
  runId : fresh.runId ∉ db.runs.map (·.id)
  distinct : Set.InjOn fresh.allocationIds (Set.Iio n)
  allocationIds : ∀ k, fresh.allocationIds k ∉ db.allocations.map (·.id)
  assessmentId : fresh.assessmentId ∉ db.assessments.map (·.id)
  caseId : fresh.caseId ∉ db.reviews.cases.map (·.id)

/-- The constraints of the table of allocations, for drafts of a document on a purchase order. -/
structure AllocationsFit (db : Tables) (documentId purchaseOrderId : Uuid) (drafts : List AllocationDraft) : Prop where
  positive : ∀ a ∈ drafts, 0 < a.quantity.toRat
  lineKeys : (db.allocations.map (·.key) ++
    drafts.map fun a => (documentId, purchaseOrderId, a.invoiceLineIndex)).Nodup
  runKeys : (drafts.map fun a => (a.purchaseOrderLineId, a.invoiceLineIndex)).Nodup

/-- What a three-way match owes a document with an extraction: the drafts of a matched result meet the constraints, no
violated constraint gets out of the call, and a run is committed. -/
structure MatchStored (E : MatchingEnv) (db : Tables) (fresh : FreshIds) (c : MatchCall) (x : ExtractionRun) : Prop where
  constraints : E.findRun db c x = none → ∀ found,
    E.decision c x (E.contextFor db c) (db.ownAllocations c.documentId c.purchaseOrder.id) = some found →
    found.1.decision = .matched → AllocationsFit db c.documentId c.purchaseOrder.id found.2
  noIntegrity : E.storeMatch db fresh c.documentId c.purchaseOrder.id ≠ .error (.raised .integrity)
  committed : ∃ r, E.storeMatch db fresh c.documentId c.purchaseOrder.id = .ok r ∧ r.run ∈ r.tables.runs

/-- Every line that is in order with a purchase-order line like it bills a quantity that is positive as stored. -/
def BackedPositive [DecimalContext] (T : TextOps) (invoice : Invoice) (po : PurchaseOrder) (receipts : List GoodsReceipt)
    (allocations : List ThreeWayAllocation) (documentId : Uuid) (policy : ThreeWayMatchingPolicy) : Prop :=
  ∀ e ∈ fitting T invoice po.toRead policy.toTolerances, ∀ q u t,
    LineBacked receipts allocations documentId invoice.invoiceDate policy (invoice.lineItems.get e.1)
      (po.toRead.lines.get e.2) q u t → StoredPositive q

/-- Every line with a place bills a quantity that is positive as stored. -/
def PlacedPositive (T : TextOps) (invoice : Invoice) (po : PurchaseOrderRead) (tol : Tolerances) : Prop :=
  ∀ S, Stable (placeKey T invoice po) (fitting T invoice po tol) S → ∀ e ∈ S, ∀ q,
    (invoice.lineItems.get e.1).quantity.Holds q → StoredPositive q

/-- The columns of the feature row and the window of the duplicate search hold the values of the invoice. -/
structure RiskStorable (E : MatchingEnv) (c : MatchCall) (x : ExtractionRun) : Prop where
  features : ∀ run, (E.riskRecord c x run).Fits
  window : ∀ run, windowCondition E.riskPolicy.dateWindowDays (E.riskRecord c x run) ≠ none

/-- What is enough to store a new match: the invoice itself is not in order, or the document has allocations on the
purchase order, or its backed lines have positive quantities; and the rest of its rows fits. -/
structure Storable (E : MatchingEnv) (db : Tables) (c : MatchCall) (x : ExtractionRun) : Prop where
  quantities : db.ownAllocations c.documentId c.purchaseOrder.id = [] →
    @HeaderOk E.decimals x.invoice c.purchaseOrder.toRead E.threeWayPolicy.toTolerances →
    @BackedPositive E.decimals E.text x.invoice c.purchaseOrder (db.receiptsOf c.purchaseOrder.id)
      (db.allocationsOf c.purchaseOrder.id) c.documentId E.threeWayPolicy
  risk : RiskStorable E c x

section

variable {E : MatchingEnv} {db : Tables} {fresh : FreshIds} {c : MatchCall} {x : ExtractionRun}
  {found : MatchResult × List AllocationDraft}

theorem pair_of_draft [DecimalContext] {T : TextOps} {invoice : Invoice} {po : PurchaseOrderRead} {tol : Tolerances}
    {assignments : List LineAssignment} (h : Represents assignments (assignedPairs T invoice po tol)) {a : LineAssignment}
    (ha : a ∈ assignments) : ∃ p ∈ selectedPairs T invoice po tol,
      invoice.lineItems[a.invoiceLineIndex]? = some p.invoiceLine := by
  have hmem : (a.invoiceLineIndex, a.poLineId) ∈ (assignedPairs T invoice po tol).map
      fun p => ((p.invoiceIndex : ℕ), p.poLine.id) := h ▸ List.mem_map_of_mem ha
  obtain ⟨p, hp, heq⟩ := List.mem_map.1 hmem
  obtain ⟨hindex, -⟩ := Prod.mk.inj heq
  refine ⟨p, perm_assignedPairs.mem_iff.1 hp, ?_⟩
  rw [← hindex]
  exact List.getElem?_eq_getElem p.invoiceIndex.isLt

theorem assignment_of_pair [DecimalContext] {T : TextOps} {invoice : Invoice} {po : PurchaseOrderRead} {tol : Tolerances}
    {assignments : List LineAssignment} (h : Represents assignments (assignedPairs T invoice po tol)) {p : Pair invoice po}
    (hp : p ∈ selectedPairs T invoice po tol) : ∃ a ∈ assignments,
      invoice.lineItems[a.invoiceLineIndex]? = some p.invoiceLine := by
  have hmem : ((p.invoiceIndex : ℕ), p.poLine.id) ∈ assignments.map fun a => (a.invoiceLineIndex, a.poLineId) := by
    rw [h]
    exact List.mem_map.2 ⟨p, perm_assignedPairs.mem_iff.2 hp, rfl⟩
  obtain ⟨a, ha, heq⟩ := List.mem_map.1 hmem
  obtain ⟨hindex, -⟩ := Prod.mk.inj heq
  refine ⟨a, ha, ?_⟩
  rw [hindex]
  exact List.getElem?_eq_getElem p.invoiceIndex.isLt

theorem storedPositive_iff
    (h : E.decision c x (some (db.contextOf E c)) (db.ownAllocations c.documentId c.purchaseOrder.id) = some found) :
    (∀ a ∈ found.2, StoredPositive a.quantity) ↔
      (found.1.decision = .matched → db.ownAllocations c.documentId c.purchaseOrder.id = [] →
        PlacedPositive E.text x.invoice c.purchaseOrder.toRead E.threeWayPolicy.toTolerances) := by
  let _ : DecimalContext := E.decimals
  constructor
  · rintro hdrafts hmatched hnone S hS e he q hq
    obtain ⟨r, drafts, hengine, ⟨-, rfl⟩ | ⟨hsome, -⟩ | ⟨hsome, -⟩⟩ := decision_cases h
    · obtain ⟨-, hresolved, -⟩ := (three_way_matched_iff c.purchaseOrder.line_ids).1 ⟨r, drafts, hengine, hmatched⟩
      rw [hS.unique (stable_selectedPairs hresolved)] at he
      obtain ⟨p, hp, rfl⟩ := he
      obtain ⟨a, ha, hline⟩ := assignment_of_pair (represents_threeWay hengine) hp
      obtain ⟨d, hd, -, -, l, hl, hheld⟩ := Lists.exists_of_forall₂_mem (drafts_of_matched hengine hmatched).flip ha
      obtain rfl := Option.some.inj (hline.symm.trans hl)
      have hsame : d.quantity = q := Option.some.inj (hheld.2.symm.trans hq.2)
      exact hsame ▸ hdrafts d hd
    · exact absurd hnone hsome
    · exact absurd hnone hsome
  · intro hplaced a ha
    obtain ⟨hnone, hmatched, hengine⟩ := drafts_of_decision h (List.ne_nil_of_mem ha)
    obtain ⟨-, hresolved, -⟩ := (three_way_matched_iff c.purchaseOrder.line_ids).1 ⟨_, _, hengine, hmatched⟩
    obtain ⟨b, hb, -, -, l, hl, hheld⟩ := Lists.exists_of_forall₂_mem (drafts_of_matched hengine hmatched) ha
    obtain ⟨p, hp, hline⟩ := pair_of_draft (represents_threeWay hengine) hb
    obtain rfl := Option.some.inj (hl.symm.trans hline)
    exact hplaced hmatched hnone _ (stable_selectedPairs hresolved) p.place ⟨p, hp, rfl⟩ _ hheld

theorem placedPositive_of_storable (hstorable : Storable E db c x)
    (h : E.decision c x (some (db.contextOf E c)) (db.ownAllocations c.documentId c.purchaseOrder.id) = some found)
    (hmatched : found.1.decision = .matched) (hnone : db.ownAllocations c.documentId c.purchaseOrder.id = []) :
    PlacedPositive E.text x.invoice c.purchaseOrder.toRead E.threeWayPolicy.toTolerances := by
  let _ : DecimalContext := E.decimals
  intro S hS e he q hq
  obtain ⟨r, drafts, hengine, ⟨-, rfl⟩ | ⟨hsome, -⟩ | ⟨hsome, -⟩⟩ := decision_cases h
  · obtain ⟨hheader, hresolved, hpairs⟩ :=
      (three_way_matched_iff c.purchaseOrder.line_ids).1 ⟨r, drafts, hengine, hmatched⟩
    obtain rfl := hS.unique (stable_selectedPairs hresolved)
    obtain ⟨p, hp, rfl⟩ := he
    obtain ⟨-, line, o, received, available, hok⟩ := hpairs p hp
    obtain ⟨q', u, t, hbacked⟩ := lineBacked_of_pair (hheader.line p) hok
    have hsame : q = q' := Option.some.inj (hq.2.symm.trans hbacked.quantityHolds.2)
    exact hsame ▸ hstorable.quantities hnone hheader p.place (hS.subset ⟨p, hp, rfl⟩) q' u t hbacked
  · exact absurd hnone hsome
  · exact absurd hnone hsome

theorem keys_of_decision (hdb : db.Sound E)
    (h : E.decision c x (some (db.contextOf E c)) (db.ownAllocations c.documentId c.purchaseOrder.id) = some found) :
    (found.2.map (·.invoiceLineIndex)).Nodup ∧
      (db.allocations.map (·.key) ++
        found.2.map fun a => (c.documentId, c.purchaseOrder.id, a.invoiceLineIndex)).Nodup := by
  rcases List.eq_nil_or_concat found.2 with hnil | ⟨init, last, hconcat⟩
  · rw [hnil, List.map_nil, List.map_nil, List.append_nil]
    exact ⟨.nil, hdb.allocationKeys⟩
  · have hne : found.2 ≠ [] := by simp [hconcat]
    let _ : DecimalContext := E.decimals
    obtain ⟨hnone, hmatched, hengine⟩ := drafts_of_decision h hne
    have hindices : found.2.map (·.invoiceLineIndex) = found.1.lineAssignments.map (·.invoiceLineIndex) := by
      refine (Lists.map_eq_map_of_forall₂ ((drafts_of_matched hengine hmatched).imp fun a d hd => ?_)).symm
      exact hd.2.1.symm
    have hnodup : (found.2.map (·.invoiceLineIndex)).Nodup :=
      hindices ▸ nodup_invoiceLineIndex (represents_threeWay hengine)
    refine ⟨hnodup, List.nodup_append'.2 ⟨hdb.allocationKeys, ?_, ?_⟩⟩
    · have hmap : (found.2.map fun a => (c.documentId, c.purchaseOrder.id, a.invoiceLineIndex)) =
          (found.2.map (·.invoiceLineIndex)).map fun i => (c.documentId, c.purchaseOrder.id, i) := by
        rw [List.map_map]
        rfl
      rw [hmap]
      exact hnodup.map fun i j hij => (Prod.mk.inj (Prod.mk.inj hij).2).2
    · intro key hold hnew
      obtain ⟨a, ha, rfl⟩ := List.mem_map.1 hold
      obtain ⟨d, -, hkey⟩ := List.mem_map.1 hnew
      obtain ⟨hdocument, hrest⟩ := Prod.mk.inj hkey
      have hown : a ∈ db.ownAllocations c.documentId c.purchaseOrder.id := by
        refine List.mem_filter.2 ⟨List.mem_filter.2 ⟨ha, ?_⟩, ?_⟩
        · simpa using (Prod.mk.inj hrest).1.symm
        · simpa using hdocument.symm
      rw [hnone] at hown
      cases hown

theorem length_drafts_le
    (h : E.decision c x (some (db.contextOf E c)) (db.ownAllocations c.documentId c.purchaseOrder.id) = some found) :
    found.2.length ≤ x.invoice.lineItems.length := by
  rcases Nat.eq_zero_or_pos found.2.length with hzero | hpos
  · omega
  · let _ : DecimalContext := E.decimals
    obtain ⟨-, hmatched, hengine⟩ := drafts_of_decision h (List.ne_nil_of_length_pos hpos)
    have hlength := congrArg List.length (represents_threeWay hengine).index
    simp only [List.length_map] at hlength
    have hperm : ((assignedPairs E.text x.invoice c.purchaseOrder.toRead E.threeWayPolicy.toTolerances).map
        Pair.invoiceIndex).Perm ((selectedPairs E.text x.invoice c.purchaseOrder.toRead
          E.threeWayPolicy.toTolerances).map Pair.invoiceIndex) := perm_assignedPairs.map _
    have hcard := (hperm.nodup_iff.2 selectedPairs_oneToOne.left).length_le_card
    rw [Fintype.card_fin, List.length_map] at hcard
    rw [← (drafts_of_matched hengine hmatched).length_eq, hlength]
    exact hcard

/-- The drafts can be stored, and their rows made, exactly when the quantities are positive as stored. -/
theorem exists_rows_iff {run : MatchRun} {ids : ℕ → Uuid} {drafts : List AllocationDraft} :
    (∃ stored rows, drafts.mapM AllocationDraft.stored = some stored ∧ newAllocations run ids stored = some rows) ↔
      ∀ a ∈ drafts, StoredPositive a.quantity := by
  constructor
  · rintro ⟨stored, rows, hstored, hrows⟩ a ha
    obtain ⟨s, hs, hsome⟩ := Lists.exists_of_forall₂_mem (Lists.mapM_eq_some_iff.1 hstored).flip ha
    obtain ⟨q, hq, rfl⟩ := Option.map_eq_some_iff.1 hsome
    obtain ⟨row, -, hrow⟩ := Lists.exists_of_forall₂_mem (newAllocations_spec hrows).flip hs
    exact ⟨q, hq, hrow.quantity ▸ row.positive⟩
  · intro hpositive
    have hdrafts : ∀ a ∈ drafts, ∃ s, a.stored = some s ∧ numericColumn s.quantity = some s.quantity ∧
        0 < s.quantity.toRat := by
      intro a ha
      obtain ⟨v, hv, hpos⟩ := hpositive a ha
      exact ⟨{ a with quantity := v }, Option.map_eq_some_iff.2 ⟨v, hv, rfl⟩, numericColumn_rounded hv, hpos⟩
    obtain ⟨stored, hstored, hfits⟩ := Lists.exists_forall₂_iff.2 hdrafts
    have hrows : ∀ s ∈ stored.zipIdx, ∃ row, newAllocation run (ids s.2) s.1 = some row ∧ True := by
      intro s hs
      obtain ⟨hcolumn, hpos⟩ := hfits s.1 (List.fst_mem_of_mem_zipIdx hs)
      rw [newAllocation, hcolumn, Option.bind_some, dif_pos hpos]
      exact ⟨_, rfl, trivial⟩
    obtain ⟨rows, hrows, -⟩ := Lists.exists_forall₂_iff.2 hrows
    exact ⟨stored, rows, Lists.mapM_eq_some_iff.2 hstored, Lists.mapM_eq_some_iff.2 hrows⟩

theorem ids_newAllocations {run : MatchRun} {drafts : List AllocationDraft} {rows : List ThreeWayAllocation} {n : ℕ}
    (hfresh : fresh.New db n) (hlength : drafts.length ≤ n)
    (h : newAllocations run fresh.allocationIds drafts = some rows) :
    (rows.map (·.id)).Nodup ∧ ∀ id ∈ rows.map (·.id), id ∉ db.allocations.map (·.id) := by
  have hrows := (Lists.mapM_eq_some_iff.1 h).imp fun d row hrow =>
    show fresh.allocationIds d.2 = row.id by
      obtain ⟨q, -, hrow⟩ := Option.bind_eq_some_iff.1 hrow
      split_ifs at hrow
      rw [← Option.some.inj hrow]
  have hids : rows.map (·.id) = (List.range' 0 drafts.length).map fresh.allocationIds := by
    rw [← Lists.map_eq_map_of_forall₂ hrows, ← List.zipIdx_map_snd, List.map_map]
    rfl
  have hlt : ∀ k ∈ List.range' 0 drafts.length, k ∈ Set.Iio n := by
    intro k hk
    have hk := (List.mem_range'_1.1 hk).2
    exact Set.mem_Iio.2 (by omega)
  rw [hids]
  refine ⟨List.Nodup.map_on (fun k hk l hl => hfresh.distinct (hlt k hk) (hlt l hl)) List.nodup_range', ?_⟩
  intro id hid
  obtain ⟨k, -, rfl⟩ := List.mem_map.1 hid
  exact hfresh.allocationIds k

theorem keys_of_rows {run : MatchRun} {ids : ℕ → Uuid} {drafts stored : List AllocationDraft}
    {rows : List ThreeWayAllocation} (hstored : drafts.mapM AllocationDraft.stored = some stored)
    (hrows : newAllocations run ids stored = some rows) :
    rows.map (·.key) = drafts.map fun a => (run.documentId, run.purchaseOrderId, a.invoiceLineIndex) := by
  have hindex : drafts.map (·.invoiceLineIndex) = stored.map (·.invoiceLineIndex) := by
    refine Lists.map_eq_map_of_forall₂ ((Lists.mapM_eq_some_iff.1 hstored).imp fun a s hs => ?_)
    obtain ⟨q, -, rfl⟩ := Option.map_eq_some_iff.1 hs
    rfl
  have hkeys : stored.map (fun a => (run.documentId, run.purchaseOrderId, a.invoiceLineIndex)) = rows.map (·.key) := by
    refine Lists.map_eq_map_of_forall₂ ((newAllocations_spec hrows).imp fun a row hrow => ?_)
    rw [ThreeWayAllocation.key, hrow.document, hrow.order, hrow.index]
  have hmap : ∀ ds : List AllocationDraft,
      (ds.map fun a => (run.documentId, run.purchaseOrderId, a.invoiceLineIndex)) =
        (ds.map (·.invoiceLineIndex)).map fun i => (run.documentId, run.purchaseOrderId, i) := by
    intro ds
    rw [List.map_map]
    rfl
  rw [← hkeys, hmap, hmap, hindex]

theorem accepts_ensureReviewCase {B : Builtins} {store : ReviewStore} {run : MatchRun} {risk : Option RiskAssessment}
    {caseId : Uuid} {now : DateTime} (hrun : run.id ∉ store.cases.map (·.matchRunId))
    (hcase : caseId ∉ store.cases.map (·.id)) : store.Accepts (ensureReviewCase B store run risk caseId now) := by
  have hnone : store.cases.find? (·.matchRunId = run.id) = none := by
    refine List.find?_eq_none.2 fun c hc heq => hrun ?_
    exact List.mem_map.2 ⟨c, hc, of_decide_eq_true heq⟩
  unfold ensureReviewCase
  rw [hnone]
  split_ifs
  · refine ⟨fun c hc => ?_, fun t ht hmem => ?_⟩
    · obtain rfl := List.mem_singleton.1 hc
      exact ⟨hcase, hrun⟩
    · obtain ⟨trigger, htrigger, rfl⟩ := List.mem_map.1 ht
      obtain ⟨u, hu, heq⟩ := List.mem_map.1 hmem
      obtain ⟨hid, hsame⟩ := Prod.mk.inj heq
      have habsent := of_decide_eq_true (List.mem_filter.1 htrigger).2
      exact habsent (List.mem_map.2 ⟨u, List.mem_filter.2 ⟨hu, decide_eq_true hid⟩, hsame⟩)
  · exact ⟨fun _ hc => absurd hc List.not_mem_nil, fun _ ht => absurd ht List.not_mem_nil⟩

/-- The rows of a new run are accepted when its ids are new and its allocations have keys of their own. -/
theorem accepts_runRows {run : MatchRun} {b : Option BuiltContext} {allocations : List ThreeWayAllocation}
    {risk : List RiskFeatureRecord × List RiskAssessment × RiskAssessment} (hdb : db.Sound E) {n : ℕ} (hfresh : fresh.New db n)
    (hid : run.id = fresh.runId) (hkey : db.findExisting run.key = none)
    (hids : (allocations.map (·.id)).Nodup ∧ ∀ id ∈ allocations.map (·.id), id ∉ db.allocations.map (·.id))
    (hkeys : (db.allocations.map (·.key) ++ allocations.map (·.key)).Nodup)
    (hrisk : E.ensureRisk db run c.purchaseOrder x.invoice fresh.assessmentId = some risk) :
    db.Accepts (E.runRows db fresh run b allocations risk) := by
  have hnew : ∀ {α : Type} {rows : List α} {f : α → Uuid}, (∀ a ∈ rows, f a ∈ db.runs.map (·.id)) →
      run.id ∉ rows.map f := by
    intro α rows f hruns hmem
    obtain ⟨a, ha, heq⟩ := List.mem_map.1 hmem
    exact hfresh.runId (hid ▸ heq ▸ hruns a ha)
  obtain ⟨features, a, hfeatures, rfl, hassess⟩ := ensureRisk_new (hnew hdb.routing.featureRuns)
    (hnew hdb.routing.assessmentRuns) hrisk
  obtain ⟨_, -, rfl⟩ := Option.map_eq_some_iff.1 hassess
  refine ⟨?_, ?_, ?_, ?_, ?_, ?_, ?_⟩
  · intro r hr
    obtain rfl := List.mem_singleton.1 hr
    refine ⟨hid ▸ hfresh.runId, fun hmem => ?_⟩
    obtain ⟨r', hr', heq⟩ := List.mem_map.1 hmem
    exact List.find?_eq_none.1 hkey r' hr' (decide_eq_true heq)
  · intro context hcontext
    obtain ⟨b, -, rfl⟩ := Option.map_eq_some_iff.1 (Option.mem_toList.1 hcontext)
    exact hnew hdb.contextRuns
  · rw [List.map_append]
    exact List.nodup_append'.2 ⟨hdb.allocationIds, hids.1, fun id hold hmem => hids.2 id hmem hold⟩
  · rw [List.map_append]
    exact hkeys
  · intro f hf
    obtain rfl := List.mem_singleton.1 hf
    rw [show (featureRecord features).matchRunId = run.id from hfeatures]
    exact hnew hdb.routing.featureRuns
  · intro a ha
    obtain rfl := List.mem_singleton.1 ha
    refine ⟨hfresh.assessmentId, fun hmem => ?_⟩
    obtain ⟨a', ha', heq⟩ := List.mem_map.1 hmem
    have hrun : a'.matchRunId = run.id := (Prod.mk.inj heq).1.trans hfeatures
    exact hnew hdb.routing.assessmentRuns (hrun ▸ List.mem_map_of_mem ha')
  · exact accepts_ensureReviewCase (hnew hdb.routing.caseRuns) hfresh.caseId

theorem ensureRisk_isSome_iff {run : MatchRun} (hfeatured : run.id ∉ db.features.map (·.matchRunId))
    (hassessed : run.id ∉ db.assessments.map (·.matchRunId)) :
    (∃ risk, E.ensureRisk db run c.purchaseOrder x.invoice fresh.assessmentId = some risk) ↔
      windowCondition E.riskPolicy.dateWindowDays (E.riskRecord c x run) ≠ none := by
  rw [ensureRisk_eq _ _ _ hfeatured hassessed, ← Option.isSome_iff_exists, ← Option.isSome_iff_ne_none,
    Option.isSome_map, assessRun, Option.isSome_map, candidateRecords, Option.isSome_map]
  exact Iff.rfl

theorem recover_of_findRun {result : MatchResult} (hnone : E.findRun db c x = none) :
    E.recover db fresh (E.newRun c x (E.contextFor db c) fresh.runId result).key = .error .integrity := by
  have hexisting : db.findExisting (E.key c x (E.contextFor db c)) = none := (Option.or_eq_none_iff.1 hnone).2
  have hkey : (E.newRun c x (E.contextFor db c) fresh.runId result).key = E.key c x (E.contextFor db c) := rfl
  rw [MatchingEnv.recover, hkey, hexisting]

theorem exists_decision (E : MatchingEnv) (db : Tables) (c : MatchCall) (x : ExtractionRun)
    (existing : List ThreeWayAllocation) : ∃ found, E.decision c x (some (db.contextOf E c)) existing = some found := by
  let _ : DecimalContext := E.decimals
  obtain ⟨r, drafts, hengine⟩ := exists_matchInvoiceThreeWay E.text x.invoice c.purchaseOrder
    (db.receiptsOf c.purchaseOrder.id) (db.allocationsOf c.purchaseOrder.id) E.threeWayPolicy c.documentId
  exact ⟨_, Option.map_eq_some_iff.2 ⟨(r, drafts), hengine, rfl⟩⟩

theorem FreshIds.New.runId_notMem {n : ℕ} (hfresh : fresh.New db n) {α : Type} {rows : List α} {f : α → Uuid}
    (hruns : ∀ a ∈ rows, f a ∈ db.runs.map (·.id)) : fresh.runId ∉ rows.map f := by
  intro hmem
  obtain ⟨a, ha, heq⟩ := List.mem_map.1 hmem
  exact hfresh.runId (heq ▸ hruns a ha)

theorem storeRun_ok_iff (hdb : db.Sound E) (hfresh : fresh.New db x.invoice.lineItems.length) (hmode : c.mode = .threeWay)
    (hnone : E.findRun db c x = none)
    (hfound : E.decision c x (some (db.contextOf E c)) (db.ownAllocations c.documentId c.purchaseOrder.id) = some found) :
    (∃ r, E.storeRun db fresh c x = .ok r ∧ r.run ∈ r.tables.runs) ↔
      RiskStorable E c x ∧ ∀ a ∈ found.2, StoredPositive a.quantity := by
  have hcontext : E.contextFor db c = some (db.contextOf E c) := contextFor_threeWay hmode
  have hdecision : E.decision c x (E.contextFor db c) (db.ownAllocations c.documentId c.purchaseOrder.id) = some found :=
    hcontext ▸ hfound
  have hrisk : ∀ run : MatchRun, run.id = fresh.runId →
      ((∃ risk, E.ensureRisk db run c.purchaseOrder x.invoice fresh.assessmentId = some risk) ↔
        windowCondition E.riskPolicy.dateWindowDays (E.riskRecord c x run) ≠ none) := fun run hid =>
    ensureRisk_isSome_iff (hid ▸ hfresh.runId_notMem hdb.routing.featureRuns)
      (hid ▸ hfresh.runId_notMem hdb.routing.assessmentRuns)
  constructor
  · rintro ⟨r, hr, -⟩
    simp only [MatchingEnv.storeRun, hdecision, recover_of_findRun hnone] at hr
    split at hr
    · cases hr
    · rename_i stored hstored
      split at hr
      · cases hr
      · rename_i rows hrows
        split at hr
        · rename_i hfits
          split at hr
          · cases hr
          · rename_i risk hsome
            have hwindow := (hrisk _ rfl).1 ⟨risk, hsome⟩
            -- the feature rows of two runs differ in nothing that the columns and the window depend on
            exact ⟨⟨fun _ => hfits, fun _ => hwindow⟩, exists_rows_iff.1 ⟨stored, rows, hstored, hrows⟩⟩
        · cases hr
  · rintro ⟨hriskStorable, hpositive⟩
    let run := E.newRun c x (E.contextFor db c) fresh.runId found.1
    obtain ⟨stored, rows, hstored, hrows⟩ : ∃ stored rows, found.2.mapM AllocationDraft.stored = some stored ∧
        newAllocations run fresh.allocationIds stored = some rows := exists_rows_iff.2 hpositive
    obtain ⟨risk, hsome⟩ := (hrisk run rfl).2 (hriskStorable.window run)
    have hexisting : db.findExisting run.key = none := (Option.or_eq_none_iff.1 hnone).2
    have hkeys := (keys_of_decision hdb hfound).2
    have hrowKeys : rows.map (·.key) = found.2.map fun a => (c.documentId, c.purchaseOrder.id, a.invoiceLineIndex) :=
      keys_of_rows hstored hrows
    rw [← hrowKeys] at hkeys
    have hlength : stored.length ≤ x.invoice.lineItems.length :=
      (Lists.mapM_eq_some_iff.1 hstored).length_eq ▸ length_drafts_le hfound
    have hids := ids_newAllocations hfresh hlength hrows
    have haccepts : db.Accepts (E.runRows db fresh run (E.contextFor db c) rows risk) :=
      accepts_runRows hdb hfresh rfl hexisting hids hkeys hsome
    refine ⟨⟨run, true, db.insert (E.runRows db fresh run (E.contextFor db c) rows risk)⟩, ?_, ?_⟩
    · simp only [MatchingEnv.storeRun, hdecision, hstored]
      simp only [show newAllocations (E.newRun c x (E.contextFor db c) fresh.runId found.1) fresh.allocationIds stored =
        some rows from hrows, if_pos (hriskStorable.features _), show E.ensureRisk db
        (E.newRun c x (E.contextFor db c) fresh.runId found.1) c.purchaseOrder x.invoice fresh.assessmentId = some risk
        from hsome]
      exact if_pos haccepts
    · exact List.mem_append_right _ (List.mem_singleton_self run)

theorem base_of_findRun {run : MatchRun} (h : E.findRun db c x = some run) : run.key.base = (E.key c x none).base := by
  rcases Option.or_eq_some_iff.1 h with hprior | ⟨-, hexisting⟩
  · obtain ⟨b, -, hb⟩ := Option.bind_eq_some_iff.1 hprior
    exact (mem_of_findPrior hb).2.1
  · exact base_of_key (mem_of_findExisting hexisting).2

theorem replay_of_findRun (fresh : FreshIds) (hdb : db.Sound E)
    (hpo : db.purchaseOrder c.purchaseOrder.id = some c.purchaseOrder) (hx : x ∈ db.extractions) {run : MatchRun}
    (hrun : E.findRun db c x = some run) :
    ∃ db', E.replay db fresh run = .ok ⟨run, false, db'⟩ ∧ run ∈ db'.runs := by
  have hmem := mem_runs_of_findRun hrun
  have hbase := base_of_findRun hrun
  have hextraction : x.id = run.extractionRunId := (congrArg MatchKey.extractionRunId hbase).symm
  have horder : run.purchaseOrderId = c.purchaseOrder.id := congrArg MatchKey.purchaseOrderId hbase
  obtain ⟨db', hreplay, -⟩ := replay_ok hdb.routing hmem hx hextraction (horder ▸ hpo) fresh
  have hruns : db'.runs = db.runs := (SameForCalls.of_replay hreplay).runs
  exact ⟨db', hreplay, hruns ▸ hmem⟩

/-- The drafts of a decision meet the constraints when their quantities are positive as stored. -/
theorem allocationsFit_of_decision (hdb : db.Sound E)
    (h : E.decision c x (some (db.contextOf E c)) (db.ownAllocations c.documentId c.purchaseOrder.id) = some found)
    (hpositive : ∀ a ∈ found.2, StoredPositive a.quantity) :
    AllocationsFit db c.documentId c.purchaseOrder.id found.2 := by
  obtain ⟨hindices, hkeys⟩ := keys_of_decision hdb h
  refine ⟨fun a ha => pos_of_storedPositive (hpositive a ha), hkeys, ?_⟩
  refine List.Nodup.of_map Prod.snd ?_
  rw [List.map_map]
  exact hindices

theorem newAllocations_stored {run : MatchRun} {ids : ℕ → Uuid} {drafts : List AllocationDraft}
    {rows : List ThreeWayAllocation} (h : newAllocations run ids drafts = some rows) :
    ∃ stored, drafts.mapM AllocationDraft.stored = some stored ∧ newAllocations run ids stored = some rows := by
  have hdraft : ∀ (d : AllocationDraft) (id : Uuid) (row : ThreeWayAllocation), newAllocation run id d = some row →
      ∃ s, d.stored = some s ∧ newAllocation run id s = some row := by
    intro d id row hrow
    obtain ⟨q, hq, hpositive⟩ := Option.bind_eq_some_iff.1 hrow
    have hrounded := roundedColumn_of_numericColumn hq
    refine ⟨{ d with quantity := q }, Option.map_eq_some_iff.2 ⟨q, hrounded, rfl⟩, ?_⟩
    rw [newAllocation, numericColumn_rounded hrounded]
    exact hpositive
  unfold newAllocations at h ⊢
  have hrows := Lists.mapM_eq_some_iff.1 h
  clear h
  -- along the drafts, which are numbered from any number on
  generalize hn : (0 : ℕ) = n at hrows ⊢
  clear hn
  induction drafts generalizing rows n with
  | nil =>
    obtain rfl := List.forall₂_nil_left_iff.1 hrows
    exact ⟨[], rfl, rfl⟩
  | cons d drafts ih =>
    rw [List.zipIdx_cons, List.forall₂_cons_left_iff] at hrows
    obtain ⟨row, rows, hrow, hrest, rfl⟩ := hrows
    obtain ⟨s, hs, hsrow⟩ := hdraft d _ row hrow
    obtain ⟨stored, hstored, hstoredRows⟩ := ih _ hrest
    refine ⟨s :: stored, Lists.mapM_eq_some_iff.2 (.cons hs (Lists.mapM_eq_some_iff.1 hstored)), ?_⟩
    rw [List.zipIdx_cons]
    exact Lists.mapM_eq_some_iff.2 (.cons hsrow (Lists.mapM_eq_some_iff.1 hstoredRows))

/-- A call without columns that returns a run returns it with columns too, when the feature row fits them. -/
theorem storeMatch_of_callMatch {documentId purchaseOrderId : Uuid} {r : MatchServiceResult}
    (h : E.callMatch db fresh documentId purchaseOrderId .threeWay = .ok r)
    (hfits : ∀ po x run, db.purchaseOrder purchaseOrderId = some po → db.currentExtraction documentId = some x →
      (E.riskRecord ⟨documentId, po, .threeWay⟩ x run).Fits) :
    E.storeMatch db fresh documentId purchaseOrderId = .ok r := by
  unfold MatchingEnv.callMatch at h
  split at h
  · cases h
  · next po hpo =>
    split at h
    · cases h
    · next x hx =>
      split at h
      · next run hrun => simp only [MatchingEnv.storeMatch, hpo, hx, hrun, h, Except.mapError]
      · next hnone =>
        obtain ⟨found, hfound, ⟨allocations, risk, hrows, hrisk, haccepts, rfl⟩ | ⟨-, run, hrun, -⟩⟩ := createRun_cases h
        · obtain ⟨stored, hstored, hstoredRows⟩ := newAllocations_stored hrows
          simp only [MatchingEnv.storeMatch, hpo, hx, hnone, MatchingEnv.storeRun, hfound, hstored, hstoredRows,
            if_pos (hfits po x _ hpo hx), hrisk]
          exact if_pos haccepts
        · rw [MatchingEnv.findRun, Option.or_eq_none_iff, hrun] at hnone
          cases hnone.2

theorem matchStored_new_iff (hdb : db.Sound E) (hfresh : fresh.New db x.invoice.lineItems.length)
    (hpo : db.purchaseOrder c.purchaseOrder.id = some c.purchaseOrder) (hx : db.currentExtraction c.documentId = some x)
    (hmode : c.mode = .threeWay) (hnone : E.findRun db c x = none)
    (hfound : E.decision c x (some (db.contextOf E c)) (db.ownAllocations c.documentId c.purchaseOrder.id) = some found) :
    MatchStored E db fresh c x ↔ RiskStorable E c x ∧ ∀ a ∈ found.2, StoredPositive a.quantity := by
  have hcontext : E.contextFor db c = some (db.contextOf E c) := contextFor_threeWay hmode
  have hcall : c = ⟨c.documentId, c.purchaseOrder, .threeWay⟩ := by
    obtain ⟨documentId, po, mode⟩ := c
    obtain rfl : mode = .threeWay := hmode
    rfl
  have hstore : E.storeMatch db fresh c.documentId c.purchaseOrder.id = E.storeRun db fresh c x := by
    simp only [MatchingEnv.storeMatch, hpo, hx, ← hcall, hnone]
  have hok := storeRun_ok_iff hdb hfresh hmode hnone hfound
  constructor
  · intro h
    obtain ⟨r, hr⟩ := h.committed
    exact hok.1 ⟨r, hstore ▸ hr⟩
  · intro hstorable
    obtain ⟨r, hr, hmem⟩ := hok.2 hstorable
    refine ⟨fun _ found' hfound' _ => ?_, ?_, ⟨r, hstore.trans hr, hmem⟩⟩
    · rw [hcontext, hfound] at hfound'
      obtain rfl := Option.some.inj hfound'
      exact allocationsFit_of_decision hdb hfound hstorable.2
    · rw [hstore, hr]
      exact fun h => by cases h

end

/-- The tap is ordered, billed and received, and not matched yet. -/
def tapTables : Tables :=
  { Tables.empty with
    purchaseOrders := [tapPurchase]
    extractions := [tapExtraction 5 4]
    receipts := [tapReceipt] }

def zeroExtraction : ExtractionRun :=
  { tapExtraction 5 4 with
    invoice :=
      { filterInvoice with
        subtotal := printed ⟨false, 0, 0⟩ "0"
        total := printed ⟨false, 0, 0⟩ "0"
        lineItems :=
          [{ filterLine "Tap" with
             quantity := printed ⟨false, 0, 0⟩ "0"
             lineTotal := printed ⟨false, 0, 0⟩ "0" }] } }

def zeroArrivals : List ServiceAct :=
  [.act (.createOrder tapPurchase), .act (.extract zeroExtraction), .act (.confirmReceipt tapReceipt)]

def storingError (result : Except StoringError MatchServiceResult) : Option StoringError :=
  match result with
  | .error e => some e
  | .ok _ => none

end InvoiceOps
