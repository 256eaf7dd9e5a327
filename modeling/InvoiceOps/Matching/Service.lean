import InvoiceOps.Matching.Decision
import InvoiceOps.Review.Service

/-! The matching service (`matching/service.py`) as transactions over the tables, together with the other
writers of the tables it reads: goods receipts and their reversals (`receipts/service.py`), receipts
confirmed in a payable case (`cases/service.py`), and extractions. A query sees committed rows only; a
transaction's own rows become visible at its commit. A three-way match and the receipt service hold the
row of the purchase order (`po_locking.py`) until the end of their transaction; a two-way match and a
confirmation do not ask for it. -/

namespace InvoiceOps

open Calendar StateMachine

/-- The policies and the decimal context the services run with, and what the source takes from elsewhere. -/
structure MatchingEnv where
  decimals : DecimalContext
  text : TextOps
  dumps : Dumps
  repr : Json → String
  similarity : String → String → Decimal
  policy : MatchingPolicy
  threeWayPolicy : ThreeWayMatchingPolicy
  riskPolicy : DuplicateRiskPolicy

def MatchingEnv.builtins (E : MatchingEnv) : Builtins := ⟨E.dumps.sha256, E.repr⟩

/-- A successful extraction; `strategy` is the place of its extractor among the current ones. -/
structure ExtractionRun where
  id : Uuid
  documentId : Uuid
  strategy : ℕ
  invoice : Invoice

structure ThreeWayContext where
  matchRunId : Uuid
  contextFingerprint : String
  replayFingerprint : String
  snapshot : ThreeWayContextSnapshot

structure Tables where
  purchaseOrders : List PurchaseOrder
  extractions : List ExtractionRun
  receipts : List GoodsReceipt
  runs : List MatchRun
  contexts : List ThreeWayContext
  allocations : List ThreeWayAllocation
  features : List RiskFeatureRecord
  assessments : List RiskAssessment
  reviews : ReviewStore

def Tables.empty : Tables := ⟨[], [], [], [], [], [], [], [], .empty⟩

/-- The columns of `uq_match_run_idempotency`. -/
structure MatchKey where
  documentId : Uuid
  purchaseOrderId : Uuid
  extractionRunId : Uuid
  policyVersion : String
  matchingMode : MatchingMode
  matchingContextFingerprint : String
deriving DecidableEq, Repr

def MatchRun.key (r : MatchRun) : MatchKey where
  documentId := r.documentId
  purchaseOrderId := r.purchaseOrderId
  extractionRunId := r.extractionRunId
  policyVersion := r.policyVersion
  matchingMode := r.matchingMode
  matchingContextFingerprint := r.matchingContextFingerprint

section

variable (db : Tables)

def Tables.purchaseOrder (id : Uuid) : Option PurchaseOrder := db.purchaseOrders.find? (·.id = id)

/-- `current_successful_extraction`: the one of the first strategy. -/
def Tables.currentExtraction (documentId : Uuid) : Option ExtractionRun :=
  ((db.extractions.filter (·.documentId = documentId)).insertionSort fun x y => x.strategy ≤ y.strategy).head?

def Tables.receiptsOf (purchaseOrderId : Uuid) : List GoodsReceipt :=
  db.receipts.filter (·.purchaseOrderId = purchaseOrderId)

def Tables.allocationsOf (purchaseOrderId : Uuid) : List ThreeWayAllocation :=
  db.allocations.filter (·.purchaseOrderId = purchaseOrderId)

/-- The allocations of one document on a purchase order. -/
def Tables.ownAllocations (documentId purchaseOrderId : Uuid) : List ThreeWayAllocation :=
  currentAllocations (db.allocationsOf purchaseOrderId) documentId

def Tables.findExisting (key : MatchKey) : Option MatchRun := db.runs.find? (·.key = key)

/-- The latest run of the same extraction and policy whose context has the replay fingerprint. -/
def Tables.findPrior (key : MatchKey) (replayFingerprint : String) : Option MatchRun :=
  db.runs.reverse.find? fun r =>
    { r.key with matchingContextFingerprint := key.matchingContextFingerprint } = key ∧
      ∃ x ∈ db.contexts, x.matchRunId = r.id ∧ x.replayFingerprint = replayFingerprint

end

/-- The rows a match adds. -/
structure NewRows where
  runs : List MatchRun
  contexts : List ThreeWayContext
  allocations : List ThreeWayAllocation
  features : List RiskFeatureRecord
  assessments : List RiskAssessment
  review : EnsuredReview

/-- The columns of `uq_three_way_allocation_document_po_invoice_line`. -/
def ThreeWayAllocation.key (a : ThreeWayAllocation) : Uuid × Uuid × ℕ :=
  (a.documentId, a.purchaseOrderId, a.invoiceLineIndex)

/-- The unique keys of the tables a match writes. -/
structure Tables.Accepts (db : Tables) (rows : NewRows) : Prop where
  runs : ∀ r ∈ rows.runs, r.id ∉ db.runs.map (·.id) ∧ r.key ∉ db.runs.map (·.key)
  contexts : ∀ x ∈ rows.contexts, x.matchRunId ∉ db.contexts.map (·.matchRunId)
  allocationIds : ((db.allocations ++ rows.allocations).map (·.id)).Nodup
  allocationKeys : ((db.allocations ++ rows.allocations).map (·.key)).Nodup
  features : ∀ f ∈ rows.features, f.matchRunId ∉ db.features.map (·.matchRunId)
  assessments : ∀ a ∈ rows.assessments, a.id ∉ db.assessments.map (·.id) ∧
    (a.matchRunId, a.policyVersion) ∉ db.assessments.map fun b => (b.matchRunId, b.policyVersion)
  review : db.reviews.Accepts rows.review

instance (db : Tables) (rows : NewRows) : Decidable (db.Accepts rows) :=
  decidable_of_iff ((∀ r ∈ rows.runs, r.id ∉ db.runs.map (·.id) ∧ r.key ∉ db.runs.map (·.key)) ∧
      (∀ x ∈ rows.contexts, x.matchRunId ∉ db.contexts.map (·.matchRunId)) ∧
      ((db.allocations ++ rows.allocations).map (·.id)).Nodup ∧
      ((db.allocations ++ rows.allocations).map (·.key)).Nodup ∧
      (∀ f ∈ rows.features, f.matchRunId ∉ db.features.map (·.matchRunId)) ∧
      (∀ a ∈ rows.assessments, a.id ∉ db.assessments.map (·.id) ∧
        (a.matchRunId, a.policyVersion) ∉ db.assessments.map fun b => (b.matchRunId, b.policyVersion)) ∧
      db.reviews.Accepts rows.review)
    ⟨fun h => ⟨h.1, h.2.1, h.2.2.1, h.2.2.2.1, h.2.2.2.2.1, h.2.2.2.2.2.1, h.2.2.2.2.2.2⟩,
      fun h => ⟨h.runs, h.contexts, h.allocationIds, h.allocationKeys, h.features, h.assessments, h.review⟩⟩

def Tables.insert (db : Tables) (rows : NewRows) : Tables :=
  { db with
    runs := db.runs ++ rows.runs
    contexts := db.contexts ++ rows.contexts
    allocations := db.allocations ++ rows.allocations
    features := db.features ++ rows.features
    assessments := db.assessments ++ rows.assessments
    reviews := db.reviews.insert rows.review }

/-- The bounds `PurchaseOrderLineCreate` puts on the lines; a confirmation in a case uses the same schema. -/
def PurchaseOrder.Creatable (po : PurchaseOrder) : Prop :=
  ∀ l ∈ po.lines, 0 < l.orderedQuantity.toRat ∧ 0 ≤ l.unitPrice.toRat ∧ ∀ t ∈ l.lineTotal, 0 ≤ t.toRat

instance (po : PurchaseOrder) : Decidable po.Creatable :=
  inferInstanceAs (Decidable (∀ l ∈ po.lines, _ ∧ _ ∧ _))

/-- A receipt can be stored: its lines are lines of its purchase order, its id and number are new, and it
has a line at all. -/
def Tables.AcceptsReceipt (db : Tables) (r : GoodsReceipt) : Prop :=
  (db.purchaseOrder r.purchaseOrderId).any (fun po => r.lines.all fun l => l.purchaseOrderLineId ∈ po.lines.map (·.id)) ∧
    r.reversal = none ∧ r.id ∉ db.receipts.map (·.id) ∧
    r.externalReceiptNumber ∉ (db.receiptsOf r.purchaseOrderId).map (·.externalReceiptNumber) ∧ r.lines ≠ []

instance (db : Tables) (r : GoodsReceipt) : Decidable (db.AcceptsReceipt r) :=
  inferInstanceAs (Decidable (_ ∧ _ ∧ _ ∧ _ ∧ _))

def GoodsReceipt.reverse (r : GoodsReceipt) (reversal : GoodsReceiptReversal) : GoodsReceipt :=
  { r with reversal := some reversal }

/-- A match that has read its purchase order. -/
structure MatchCall where
  documentId : Uuid
  purchaseOrder : PurchaseOrder
  mode : MatchingMode

/-- A context with its two fingerprints. -/
structure BuiltContext where
  snapshot : ThreeWayContextSnapshot
  contextFingerprint : String
  replayFingerprint : String

section

variable (E : MatchingEnv) (c : MatchCall) (x : ExtractionRun) (b : Option BuiltContext)

def MatchingEnv.build (receipts : List GoodsReceipt) (allocations : List ThreeWayAllocation) : BuiltContext :=
  letI := E.decimals
  let built := buildContext E.dumps receipts allocations c.purchaseOrder E.threeWayPolicy c.documentId
  ⟨built.1, built.2.1, built.2.2⟩

def MatchingEnv.twoWayFingerprint : String :=
  E.dumps.sha256 "invoiceops:two-way-context:v1".toByteArray

def MatchingEnv.policyVersion (mode : MatchingMode) : String :=
  match mode with
  | .threeWay => E.threeWayPolicy.version
  | .twoWay => E.policy.version

def MatchingEnv.key : MatchKey where
  documentId := c.documentId
  purchaseOrderId := c.purchaseOrder.id
  extractionRunId := x.id
  policyVersion := E.policyVersion c.mode
  matchingMode := c.mode
  matchingContextFingerprint := b.elim E.twoWayFingerprint (·.contextFingerprint)

/-- What the assignments of a result would allocate. Their indices are distinct, so that a list stands
for the dictionary of the source. -/
def proposals (invoice : Invoice) (result : MatchResult) : List AllocationDraft :=
  result.lineAssignments.filterMap fun a =>
    (invoice.lineItems[a.invoiceLineIndex]?).bind fun line =>
      line.quantity.value.map fun q => ⟨a.poLineId, a.invoiceLineIndex, q⟩

/-- The proposals and the stored allocations differ in an index, a line or a quantity. -/
def allocationConflict (proposed : List AllocationDraft) (existing : List ThreeWayAllocation) : Bool :=
  (proposed.any fun p => p.invoiceLineIndex ∉ existing.map (·.invoiceLineIndex)) ||
  (existing.any fun e => e.invoiceLineIndex ∉ proposed.map (·.invoiceLineIndex)) ||
  proposed.any fun p =>
    (existing.reverse.find? (·.invoiceLineIndex = p.invoiceLineIndex)).any fun e =>
      p.purchaseOrderLineId ≠ e.purchaseOrderLineId || ¬ p.quantity.numEq e.allocatedQuantity

def reconciliationCheck : ValidationCheck where
  code := .allocationReconciliationRequired
  status := .failed
  severity := .error
  message := "The proposed allocation differs from this invoice's existing immutable " ++
    "allocation and requires explicit reconciliation."

def MatchResult.reconcile (result : MatchResult) : MatchResult :=
  { result with
    decision := .needsReview
    checks := result.checks ++ [reconciliationCheck]
    reasonCodes := if ReasonCode.allocationReconciliationRequired ∈ result.reasonCodes then result.reasonCodes
      else result.reasonCodes ++ [.allocationReconciliationRequired]
    summary := { result.summary with failedCheckCount := result.summary.failedCheckCount + 1 } }

/-- `_reconcile_allocations`, with the allocations the document has on the purchase order. -/
def reconcileAllocations (existing : List ThreeWayAllocation) (invoice : Invoice) (result : MatchResult)
    (drafts : List AllocationDraft) : MatchResult × List AllocationDraft :=
  if existing = [] then (result, drafts)
  else if allocationConflict (proposals invoice result) existing then (result.reconcile, [])
  else (result, [])

/-- The decision of a call; the three-way engine raises when its context does not answer a lookup. -/
def MatchingEnv.decision (existing : List ThreeWayAllocation) : Option (MatchResult × List AllocationDraft) :=
  letI := E.decimals
  match b with
  | none => some (matchInvoice E.text x.invoice c.purchaseOrder.toRead E.policy, [])
  | some context =>
    (matchInvoiceThreeWay E.text x.invoice c.purchaseOrder.toRead context.snapshot E.threeWayPolicy).map
      fun found => reconcileAllocations existing x.invoice found.1 found.2

def MatchingEnv.newRun (id : Uuid) (result : MatchResult) : MatchRun where
  id := id
  documentId := c.documentId
  purchaseOrderId := c.purchaseOrder.id
  extractionRunId := x.id
  policyVersion := E.policyVersion c.mode
  matchingMode := c.mode
  matchingContextFingerprint := b.elim E.twoWayFingerprint (·.contextFingerprint)
  riskPolicyVersion := E.riskPolicy.version
  decision := result.decision
  result := result

end

/-- A stored allocation. The quantity must be positive; what does not fit the column is not modelled. -/
def newAllocation (run : MatchRun) (id : Uuid) (d : AllocationDraft) : Option ThreeWayAllocation :=
  (numericColumn d.quantity).bind fun q =>
    if h : 0 < q.toRat then some
      { id := id
        matchRunId := run.id
        documentId := run.documentId
        purchaseOrderId := run.purchaseOrderId
        extractionRunId := run.extractionRunId
        purchaseOrderLineId := d.purchaseOrderLineId
        invoiceLineIndex := d.invoiceLineIndex
        allocatedQuantity := q
        positive := h }
    else none

def newAllocations (run : MatchRun) (ids : ℕ → Uuid) (drafts : List AllocationDraft) :
    Option (List ThreeWayAllocation) :=
  drafts.zipIdx.mapM fun d => newAllocation run (ids d.2) d.1

/-- `DuplicateRiskService.ensure`: the rows it adds and the assessment of the run. -/
def MatchingEnv.ensureRisk (E : MatchingEnv) (db : Tables) (run : MatchRun) (po : PurchaseOrder)
    (invoice : Invoice) (assessmentId : Uuid) :
    Option (List RiskFeatureRecord × List RiskAssessment × RiskAssessment) :=
  let features := buildFeatureSnapshot E.text.toUnicode run po invoice
  let stored := db.features.find? (·.matchRunId = run.id)
  let added := if stored.isSome then [] else [featureRecord features]
  match db.assessments.find? fun a => a.matchRunId = run.id ∧ a.policyVersion = E.riskPolicy.version with
  | some assessment => some (added, [], assessment)
  | none =>
    (assessRun E.similarity E.riskPolicy db.features (stored.getD (featureRecord features)) features
      assessmentId).map fun assessment => (added, [assessment], assessment)

section

variable {E : MatchingEnv} {db : Tables} {run : MatchRun} {po : PurchaseOrder} {invoice : Invoice} {id : Uuid}
  {risk : List RiskFeatureRecord × List RiskAssessment × RiskAssessment}

/-- A run with features and an assessment gets none; the assessment is the stored one. -/
theorem ensureRisk_stored (po : PurchaseOrder) (invoice : Invoice) (id : Uuid)
    (hfeatured : run.id ∈ db.features.map (·.matchRunId))
    (hassessed : (run.id, E.riskPolicy.version) ∈ db.assessments.map fun a => (a.matchRunId, a.policyVersion)) :
    ∃ a ∈ db.assessments, a.matchRunId = run.id ∧ a.policyVersion = E.riskPolicy.version ∧
      E.ensureRisk db run po invoice id = some ([], [], a) := by
  obtain ⟨f, hf, hfid⟩ := List.mem_map.1 hfeatured
  obtain ⟨a, ha, haid⟩ := List.mem_map.1 hassessed
  obtain ⟨hrunid, hversion⟩ := Prod.mk.inj haid
  have hstored : (db.features.find? (·.matchRunId = run.id)).isSome :=
    List.find?_isSome.2 ⟨f, hf, by simpa using hfid⟩
  have hassessed : (db.assessments.find? fun a => a.matchRunId = run.id ∧
      a.policyVersion = E.riskPolicy.version).isSome :=
    List.find?_isSome.2 ⟨a, ha, by simp [hrunid, hversion]⟩
  obtain ⟨assessment, hassessment⟩ := Option.isSome_iff_exists.1 hassessed
  have hfound : assessment.matchRunId = run.id ∧ assessment.policyVersion = E.riskPolicy.version := by
    simpa using List.find?_some hassessment
  refine ⟨assessment, List.mem_of_find?_eq_some hassessment, hfound.1, hfound.2, ?_⟩
  simp only [MatchingEnv.ensureRisk, hassessment, hstored, if_true]

theorem ensureRisk_eq (po : PurchaseOrder) (invoice : Invoice) (id : Uuid)
    (hfeatured : run.id ∉ db.features.map (·.matchRunId)) (hassessed : run.id ∉ db.assessments.map (·.matchRunId)) :
    let features := buildFeatureSnapshot E.text.toUnicode run po invoice
    E.ensureRisk db run po invoice id =
      (assessRun E.similarity E.riskPolicy db.features (featureRecord features) features id).map
        fun assessment => ([featureRecord features], [assessment], assessment) := by
  have hstored : db.features.find? (·.matchRunId = run.id) = none := by
    refine List.find?_eq_none.2 fun f hf hid => hfeatured ?_
    exact List.mem_map.2 ⟨f, hf, of_decide_eq_true hid⟩
  have hnone : (db.assessments.find? fun a => a.matchRunId = run.id ∧
      a.policyVersion = E.riskPolicy.version) = none := by
    refine List.find?_eq_none.2 fun a ha hid => hassessed ?_
    exact List.mem_map.2 ⟨a, ha, (of_decide_eq_true hid).1⟩
  simp only [MatchingEnv.ensureRisk, hstored, hnone, Option.getD_none, Option.isSome_none, Bool.false_eq_true,
    if_false]

theorem ensureRisk_new (hfeatured : run.id ∉ db.features.map (·.matchRunId))
    (hassessed : run.id ∉ db.assessments.map (·.matchRunId))
    (hrisk : E.ensureRisk db run po invoice id = some risk) :
    ∃ features a, features.matchRunId = run.id ∧ risk = ([featureRecord features], [a], a) ∧
      assessRun E.similarity E.riskPolicy db.features (featureRecord features) features id = some a := by
  rw [ensureRisk_eq po invoice id hfeatured hassessed, Option.map_eq_some_iff] at hrisk
  obtain ⟨a, ha, rfl⟩ := hrisk
  exact ⟨buildFeatureSnapshot E.text.toUnicode run po invoice, a, rfl, rfl, ha⟩

end

/-- How far a transaction has come, with what it has read. -/
inductive TxnPhase
  | begun (c : MatchCall)
  | extracted (c : MatchCall) (x : ExtractionRun)
  | received (c : MatchCall) (x : ExtractionRun) (receipts : List GoodsReceipt)
  | built (c : MatchCall) (x : ExtractionRun) (b : BuiltContext)
  | searched (c : MatchCall) (x : ExtractionRun) (b : BuiltContext)
  /-- No run with the key of the call was found. -/
  | absent (c : MatchCall) (x : ExtractionRun) (b : Option BuiltContext)
  | decided (c : MatchCall) (x : ExtractionRun) (b : Option BuiltContext) (run : MatchRun)
      (drafts : List AllocationDraft)
  /-- All rows are there, the risk candidates read among `visible`. A new run has a key to recover with. -/
  | ready (key : Option MatchKey) (visible : List RiskFeatureRecord) (rows : NewRows)
  | recovering (key : MatchKey)
  | replaying (run : MatchRun)
  | receiving (receipt : GoodsReceipt)
  | reversing (receiptId purchaseOrderId : Uuid) (reversal : GoodsReceiptReversal)

/-- The committed tables, the holders of the purchase-order rows, and the transactions. -/
structure MatchWorld where
  db : Tables
  locks : Uuid → Option ℕ
  txns : ℕ → Option TxnPhase

def MatchWorld.initial : MatchWorld := ⟨.empty, fun _ => none, fun _ => none⟩

/-- What can happen next: a step of transaction `i`, or a commit of another service. Ids and times the
services make up are part of the step. -/
inductive MatchAct
  | createOrder (po : PurchaseOrder)
  | extract (x : ExtractionRun)
  | confirmReceipt (receipt : GoodsReceipt)
  | beginReceipt (i : ℕ) (receipt : GoodsReceipt)
  | beginReversal (i : ℕ) (receiptId : Uuid) (reversal : GoodsReceiptReversal)
  | beginMatch (i : ℕ) (documentId purchaseOrderId : Uuid) (mode : MatchingMode)
  | readExtraction (i : ℕ)
  | readReceipts (i : ℕ)
  | readAllocations (i : ℕ)
  | searchPrior (i : ℕ)
  | searchExisting (i : ℕ)
  | decide (i : ℕ) (runId : Uuid)
  | assess (i : ℕ) (allocationIds : ℕ → Uuid) (assessmentId caseId : Uuid) (now : DateTime)
  | repair (i : ℕ) (assessmentId caseId : Uuid) (now : DateTime)
  | commit (i : ℕ)
  | recover (i : ℕ)
  | abort (i : ℕ)

section

variable (w : MatchWorld) (i : ℕ)

def MatchWorld.enter (phase : TxnPhase) : MatchWorld :=
  { w with txns := Function.update w.txns i (some phase) }

def MatchWorld.lock (purchaseOrderId : Uuid) : MatchWorld :=
  { w with locks := Function.update w.locks purchaseOrderId (some i) }

/-- The end of the transaction of `i`: it holds nothing any more. -/
def MatchWorld.release : MatchWorld :=
  { w with locks := fun p => if w.locks p = some i then none else w.locks p }

def MatchWorld.finish : MatchWorld :=
  { w.release i with txns := Function.update w.txns i none }

/-- `FOR UPDATE`: only when nobody holds the row. -/
def MatchWorld.lockFor (purchaseOrderId : Uuid) (phase : TxnPhase) : Option MatchWorld :=
  if w.locks purchaseOrderId = none then some ((w.lock i purchaseOrderId).enter i phase) else none

end

section

variable (E : MatchingEnv) (w : MatchWorld) (i : ℕ)

def MatchWorld.beginMatch (documentId purchaseOrderId : Uuid) (mode : MatchingMode) : Option MatchWorld :=
  (w.db.purchaseOrder purchaseOrderId).bind fun po =>
    match mode with
    | .threeWay => w.lockFor i purchaseOrderId (.begun ⟨documentId, po, .threeWay⟩)
    | .twoWay => some (w.enter i (.begun ⟨documentId, po, .twoWay⟩))

/-- `_find_existing`: a run that is there is replayed. -/
def MatchWorld.searchExisting (c : MatchCall) (x : ExtractionRun) (b : Option BuiltContext) : MatchWorld :=
  match w.db.findExisting (E.key c x b) with
  | some run => w.enter i (.replaying run)
  | none => w.enter i (.absent c x b)

def contextRow (run : MatchRun) (b : BuiltContext) : ThreeWayContext :=
  ⟨run.id, b.contextFingerprint, b.replayFingerprint, b.snapshot⟩

/-- The rows of a new run. When an allocation is refused, the transaction is rolled back. -/
def MatchWorld.assess (c : MatchCall) (x : ExtractionRun) (b : Option BuiltContext) (run : MatchRun)
    (drafts : List AllocationDraft) (allocationIds : ℕ → Uuid) (assessmentId caseId : Uuid) (now : DateTime) :
    MatchWorld :=
  match newAllocations run allocationIds drafts with
  | none => (w.release i).enter i (.recovering run.key)
  | some allocations =>
    match E.ensureRisk w.db run c.purchaseOrder x.invoice assessmentId with
    | none => w.finish i
    | some risk => w.enter i (.ready (some run.key) w.db.features
        { runs := [run]
          contexts := (b.map (contextRow run)).toList
          allocations := allocations
          features := risk.1
          assessments := risk.2.1
          review := ensureReviewCase E.builtins w.db.reviews run (some risk.2.2) caseId now })

/-- `_ensure_case_for_existing`: what is missing of a run that is there. -/
def MatchWorld.repair (run : MatchRun) (assessmentId caseId : Uuid) (now : DateTime) : MatchWorld :=
  match w.db.extractions.find? (·.id = run.extractionRunId), w.db.purchaseOrder run.purchaseOrderId with
  | some x, some po =>
    match E.ensureRisk w.db run po x.invoice assessmentId with
    | none => w.finish i
    | some risk => w.enter i (.ready none w.db.features
        { runs := []
          contexts := []
          allocations := []
          features := risk.1
          assessments := risk.2.1
          review := ensureReviewCase E.builtins w.db.reviews run (some risk.2.2) caseId now })
  | _, _ => w.finish i

/-- The commit of the rows, or the rollback when a unique key is violated. -/
def MatchWorld.commitRows (key : Option MatchKey) (rows : NewRows) : MatchWorld :=
  if w.db.Accepts rows then { w.finish i with db := w.db.insert rows }
  else
    match key with
    | some key => (w.release i).enter i (.recovering key)
    | none => w.finish i

def MatchWorld.commitReceipt (receipt : GoodsReceipt) : MatchWorld :=
  if w.db.AcceptsReceipt receipt then
    { w.finish i with db := { w.db with receipts := w.db.receipts ++ [receipt] } }
  else w.finish i

def MatchWorld.commitReversal (receiptId : Uuid) (reversal : GoodsReceiptReversal) : MatchWorld :=
  { w.finish i with
    db := { w.db with
      receipts := w.db.receipts.map fun r => if r.id = receiptId then r.reverse reversal else r } }

def MatchWorld.next : MatchAct → Option MatchWorld
  | .createOrder po =>
    if po.id ∉ w.db.purchaseOrders.map (·.id) ∧ po.Creatable then
      some { w with db := { w.db with purchaseOrders := w.db.purchaseOrders ++ [po] } }
    else none
  | .extract x =>
    if x.id ∈ w.db.extractions.map (·.id) ∨
        (x.documentId, x.strategy) ∈ w.db.extractions.map fun y => (y.documentId, y.strategy) then none
    else some { w with db := { w.db with extractions := w.db.extractions ++ [x] } }
  | .confirmReceipt receipt =>
    if w.db.AcceptsReceipt receipt then
      some { w with db := { w.db with receipts := w.db.receipts ++ [receipt] } }
    else none
  | .beginReceipt i receipt =>
    if w.txns i = none ∧ w.db.AcceptsReceipt receipt then
      w.lockFor i receipt.purchaseOrderId (.receiving receipt)
    else none
  | .beginReversal i receiptId reversal =>
    match w.txns i, w.db.receipts.find? (·.id = receiptId) with
    | none, some r =>
      if r.reversal = none then w.lockFor i r.purchaseOrderId (.reversing receiptId r.purchaseOrderId reversal)
      else none
    | _, _ => none
  | .beginMatch i documentId purchaseOrderId mode =>
    match w.txns i with
    | none => w.beginMatch i documentId purchaseOrderId mode
    | _ => none
  | .readExtraction i =>
    match w.txns i with
    | some (.begun c) =>
      match w.db.currentExtraction c.documentId with
      | some x => some (w.enter i (.extracted c x))
      | none => some (w.finish i)
    | _ => none
  | .readReceipts i =>
    match w.txns i with
    | some (.extracted c x) =>
      if c.mode = .threeWay then some (w.enter i (.received c x (w.db.receiptsOf c.purchaseOrder.id))) else none
    | _ => none
  | .readAllocations i =>
    match w.txns i with
    | some (.received c x receipts) =>
      some (w.enter i (.built c x (E.build c receipts (w.db.allocationsOf c.purchaseOrder.id))))
    | _ => none
  | .searchPrior i =>
    match w.txns i with
    | some (.built c x b) =>
      match w.db.findPrior (E.key c x (some b)) b.replayFingerprint with
      | some run => some (w.enter i (.replaying run))
      | none => some (w.enter i (.searched c x b))
    | _ => none
  | .searchExisting i =>
    match w.txns i with
    | some (.extracted c x) => if c.mode = .twoWay then some (w.searchExisting E i c x none) else none
    | some (.searched c x b) => some (w.searchExisting E i c x (some b))
    | _ => none
  | .decide i runId =>
    match w.txns i with
    | some (.absent c x b) =>
      match E.decision c x b (w.db.ownAllocations c.documentId c.purchaseOrder.id) with
      | some found => some (w.enter i (.decided c x b (E.newRun c x b runId found.1) found.2))
      | none => some (w.finish i)
    | _ => none
  | .assess i allocationIds assessmentId caseId now =>
    match w.txns i with
    | some (.decided c x b run drafts) =>
      some (w.assess E i c x b run drafts allocationIds assessmentId caseId now)
    | _ => none
  | .repair i assessmentId caseId now =>
    match w.txns i with
    | some (.replaying run) => some (w.repair E i run assessmentId caseId now)
    | _ => none
  | .commit i =>
    match w.txns i with
    | some (.ready key _ rows) => some (w.commitRows i key rows)
    | some (.receiving receipt) => some (w.commitReceipt i receipt)
    | some (.reversing receiptId _ reversal) => some (w.commitReversal i receiptId reversal)
    | _ => none
  | .recover i =>
    match w.txns i with
    | some (.recovering key) =>
      match w.db.findExisting key with
      | some run => some (w.enter i (.replaying run))
      | none => some (w.finish i)
    | _ => none
  | .abort i => if (w.txns i).isSome then some (w.finish i) else none

end

/-- A transaction goes on by reading the committed tables. -/
inductive Reads (E : MatchingEnv) (db : Tables) : TxnPhase → TxnPhase → Prop
  | extraction {c : MatchCall} {x : ExtractionRun} : db.currentExtraction c.documentId = some x →
      Reads E db (.begun c) (.extracted c x)
  | receipts {c : MatchCall} {x : ExtractionRun} : c.mode = .threeWay →
      Reads E db (.extracted c x) (.received c x (db.receiptsOf c.purchaseOrder.id))
  | allocations {c : MatchCall} {x : ExtractionRun} {receipts : List GoodsReceipt} :
      Reads E db (.received c x receipts)
        (.built c x (E.build c receipts (db.allocationsOf c.purchaseOrder.id)))
  | noPrior {c : MatchCall} {x : ExtractionRun} {b : BuiltContext} :
      db.findPrior (E.key c x (some b)) b.replayFingerprint = none → Reads E db (.built c x b) (.searched c x b)
  | absentTwoWay {c : MatchCall} {x : ExtractionRun} : c.mode = .twoWay →
      Reads E db (.extracted c x) (.absent c x none)
  | absent {c : MatchCall} {x : ExtractionRun} {b : BuiltContext} :
      Reads E db (.searched c x b) (.absent c x (some b))
  | found {phase : TxnPhase} {run : MatchRun} : run ∈ db.runs → Reads E db phase (.replaying run)
  | decide {c : MatchCall} {x : ExtractionRun} {b : Option BuiltContext} {found : MatchResult × List AllocationDraft}
      (runId : Uuid) : E.decision c x b (db.ownAllocations c.documentId c.purchaseOrder.id) = some found →
      Reads E db (.absent c x b) (.decided c x b (E.newRun c x b runId found.1) found.2)
  | assess {c : MatchCall} {x : ExtractionRun} {b : Option BuiltContext} {run : MatchRun}
      {drafts : List AllocationDraft} {ids : ℕ → Uuid} {allocations : List ThreeWayAllocation} {assessmentId : Uuid}
      {risk : List RiskFeatureRecord × List RiskAssessment × RiskAssessment} (caseId : Uuid) (now : DateTime) :
      newAllocations run ids drafts = some allocations →
      E.ensureRisk db run c.purchaseOrder x.invoice assessmentId = some risk →
      Reads E db (.decided c x b run drafts) (.ready (some run.key) db.features
        ⟨[run], (b.map (contextRow run)).toList, allocations, risk.1, risk.2.1,
          ensureReviewCase E.builtins db.reviews run (some risk.2.2) caseId now⟩)
  | repair {run : MatchRun} {x : ExtractionRun} {po : PurchaseOrder} {assessmentId : Uuid}
      {risk : List RiskFeatureRecord × List RiskAssessment × RiskAssessment} (caseId : Uuid) (now : DateTime) :
      E.ensureRisk db run po x.invoice assessmentId = some risk →
      Reads E db (.replaying run) (.ready none db.features ⟨[], [], [], risk.1, risk.2.1,
        ensureReviewCase E.builtins db.reviews run (some risk.2.2) caseId now⟩)

/-- What a step of the machine does. New rows of a match come with a commit of its transaction. -/
inductive MatchMoves (E : MatchingEnv) (w : MatchWorld) (a : MatchAct) : MatchWorld → Prop
  | order {po : PurchaseOrder} : po.id ∉ w.db.purchaseOrders.map (·.id) → po.Creatable →
      MatchMoves E w a { w with db := { w.db with purchaseOrders := w.db.purchaseOrders ++ [po] } }
  | extraction {x : ExtractionRun} : x.id ∉ w.db.extractions.map (·.id) →
      MatchMoves E w a { w with db := { w.db with extractions := w.db.extractions ++ [x] } }
  | receipt {r : GoodsReceipt} : a = .confirmReceipt r → w.db.AcceptsReceipt r →
      MatchMoves E w a { w with db := { w.db with receipts := w.db.receipts ++ [r] } }
  | lockReceipt {i : ℕ} {r : GoodsReceipt} : w.locks r.purchaseOrderId = none →
      MatchMoves E w a ((w.lock i r.purchaseOrderId).enter i (.receiving r))
  | lockReversal {i : ℕ} {r : GoodsReceipt} {reversal : GoodsReceiptReversal} : r ∈ w.db.receipts →
      r.reversal = none → w.locks r.purchaseOrderId = none →
      MatchMoves E w a ((w.lock i r.purchaseOrderId).enter i (.reversing r.id r.purchaseOrderId reversal))
  | lockMatch {i : ℕ} {documentId : Uuid} {po : PurchaseOrder} : po ∈ w.db.purchaseOrders →
      w.locks po.id = none → MatchMoves E w a ((w.lock i po.id).enter i (.begun ⟨documentId, po, .threeWay⟩))
  | enterMatch {i : ℕ} {documentId : Uuid} {po : PurchaseOrder} : po ∈ w.db.purchaseOrders →
      MatchMoves E w a (w.enter i (.begun ⟨documentId, po, .twoWay⟩))
  | read {i : ℕ} {phase phase' : TxnPhase} : w.txns i = some phase → Reads E w.db phase phase' →
      MatchMoves E w a (w.enter i phase')
  | finish {i : ℕ} : MatchMoves E w a (w.finish i)
  | rollback {i : ℕ} {key : MatchKey} : MatchMoves E w a ((w.release i).enter i (.recovering key))
  | commit {i : ℕ} {key : Option MatchKey} {visible : List RiskFeatureRecord} {rows : NewRows} :
      a = .commit i → w.txns i = some (.ready key visible rows) → w.db.Accepts rows →
      MatchMoves E w a { w.finish i with db := w.db.insert rows }
  | commitReceipt {i : ℕ} {r : GoodsReceipt} : w.txns i = some (.receiving r) → w.db.AcceptsReceipt r →
      MatchMoves E w a { w.finish i with db := { w.db with receipts := w.db.receipts ++ [r] } }
  | commitReversal {i : ℕ} {receiptId purchaseOrderId : Uuid} {reversal : GoodsReceiptReversal} :
      w.txns i = some (.reversing receiptId purchaseOrderId reversal) →
      MatchMoves E w a { w.finish i with
        db := { w.db with
          receipts := w.db.receipts.map fun r => if r.id = receiptId then r.reverse reversal else r } }

section

variable {E : MatchingEnv} {w w' : MatchWorld} {a : MatchAct} {i : ℕ}

theorem Tables.mem_purchaseOrders {db : Tables} {id : Uuid} {po : PurchaseOrder}
    (h : db.purchaseOrder id = some po) : po ∈ db.purchaseOrders ∧ po.id = id :=
  ⟨List.mem_of_find?_eq_some h, by simpa using List.find?_some h⟩

theorem mem_runs_of_findPrior {db : Tables} {key : MatchKey} {fp : String} {run : MatchRun}
    (h : db.findPrior key fp = some run) : run ∈ db.runs :=
  List.mem_reverse.1 (List.mem_of_find?_eq_some h)

theorem moves_beginMatch {documentId purchaseOrderId : Uuid} {mode : MatchingMode}
    (h : w.beginMatch i documentId purchaseOrderId mode = some w') : MatchMoves E w a w' := by
  obtain ⟨po, hpo, h⟩ := Option.bind_eq_some_iff.1 h
  obtain ⟨hmem, rfl⟩ := Tables.mem_purchaseOrders hpo
  cases mode with
  | twoWay => exact Option.some.inj h ▸ .enterMatch hmem
  | threeWay =>
    simp only [MatchWorld.lockFor] at h
    split_ifs at h with hlock
    exact Option.some.inj h ▸ .lockMatch hmem hlock

theorem moves_searchExisting {phase : TxnPhase} {c : MatchCall} {x : ExtractionRun} {b : Option BuiltContext}
    (hphase : w.txns i = some phase) (habsent : Reads E w.db phase (.absent c x b)) :
    MatchMoves E w a (w.searchExisting E i c x b) := by
  unfold MatchWorld.searchExisting
  cases hfound : w.db.findExisting (E.key c x b) with
  | some run => exact .read hphase (.found (List.mem_of_find?_eq_some hfound))
  | none => exact .read hphase habsent

theorem moves_assess {c : MatchCall} {x : ExtractionRun} {b : Option BuiltContext} {run : MatchRun}
    {drafts : List AllocationDraft} {ids : ℕ → Uuid} {assessmentId caseId : Uuid} {now : DateTime}
    (hphase : w.txns i = some (.decided c x b run drafts)) :
    MatchMoves E w a (w.assess E i c x b run drafts ids assessmentId caseId now) := by
  unfold MatchWorld.assess
  cases hrows : newAllocations run ids drafts with
  | none => exact .rollback
  | some allocations =>
    cases hrisk : E.ensureRisk w.db run c.purchaseOrder x.invoice assessmentId with
    | none => exact .finish
    | some risk => exact .read hphase (.assess caseId now hrows hrisk)

theorem moves_repair {run : MatchRun} {assessmentId caseId : Uuid} {now : DateTime}
    (hphase : w.txns i = some (.replaying run)) : MatchMoves E w a (w.repair E i run assessmentId caseId now) := by
  unfold MatchWorld.repair
  cases w.db.extractions.find? (·.id = run.extractionRunId) with
  | none => exact .finish
  | some x =>
    cases w.db.purchaseOrder run.purchaseOrderId with
    | none => exact .finish
    | some po =>
      cases hrisk : E.ensureRisk w.db run po x.invoice assessmentId with
      | none => simpa only [hrisk] using MatchMoves.finish
      | some risk => simpa only [hrisk] using MatchMoves.read hphase (.repair caseId now hrisk)

theorem moves_commitRows {key : Option MatchKey} {visible : List RiskFeatureRecord} {rows : NewRows}
    (hphase : w.txns i = some (.ready key visible rows)) :
    MatchMoves E w (.commit i) (w.commitRows i key rows) := by
  unfold MatchWorld.commitRows
  split_ifs with haccepts
  · exact .commit rfl hphase haccepts
  · cases key with
    | some key => exact .rollback
    | none => exact .finish

theorem moves_commitReceipt {r : GoodsReceipt} (hphase : w.txns i = some (.receiving r)) :
    MatchMoves E w a (w.commitReceipt i r) := by
  unfold MatchWorld.commitReceipt
  split_ifs with haccepts
  · exact .commitReceipt hphase haccepts
  · exact .finish

end

theorem matchMoves_of_next {E : MatchingEnv} {w w' : MatchWorld} {a : MatchAct} (h : w.next E a = some w') :
    MatchMoves E w a w' := by
  cases a with
  | createOrder po =>
    simp only [MatchWorld.next] at h
    split_ifs at h with hid
    exact Option.some.inj h ▸ .order hid.1 hid.2
  | extract x =>
    simp only [MatchWorld.next] at h
    split_ifs at h with hid
    exact Option.some.inj h ▸ .extraction (not_or.1 hid).1
  | confirmReceipt r =>
    simp only [MatchWorld.next] at h
    split_ifs at h with haccepts
    exact Option.some.inj h ▸ .receipt rfl haccepts
  | beginReceipt i r =>
    simp only [MatchWorld.next, MatchWorld.lockFor] at h
    split_ifs at h with hbegin hlock
    exact Option.some.inj h ▸ .lockReceipt hlock
  | beginReversal i receiptId reversal =>
    simp only [MatchWorld.next, MatchWorld.lockFor] at h
    split at h
    · next r _ hr =>
      split_ifs at h with hrev hlock
      obtain rfl : r.id = receiptId := by simpa using List.find?_some hr
      exact Option.some.inj h ▸ .lockReversal (List.mem_of_find?_eq_some hr) hrev hlock
    · cases h
  | beginMatch i documentId purchaseOrderId mode =>
    simp only [MatchWorld.next] at h
    split at h
    · exact moves_beginMatch h
    · cases h
  | readExtraction i =>
    simp only [MatchWorld.next] at h
    split at h
    · next c hc =>
      cases hx : w.db.currentExtraction c.documentId with
      | some x => exact Option.some.inj (by simpa only [hx] using h) ▸ .read hc (.extraction hx)
      | none => exact Option.some.inj (by simpa only [hx] using h) ▸ .finish
    · cases h
  | readReceipts i =>
    simp only [MatchWorld.next] at h
    split at h
    · next c x hc =>
      split_ifs at h with hmode
      exact Option.some.inj h ▸ .read hc (.receipts hmode)
    · cases h
  | readAllocations i =>
    simp only [MatchWorld.next] at h
    split at h
    · next c x receipts hc => exact Option.some.inj h ▸ .read hc .allocations
    · cases h
  | searchPrior i =>
    simp only [MatchWorld.next] at h
    split at h
    · next c x b hc =>
      cases hp : w.db.findPrior (E.key c x (some b)) b.replayFingerprint with
      | some run =>
        exact Option.some.inj (by simpa only [hp] using h) ▸ .read hc (.found (mem_runs_of_findPrior hp))
      | none => exact Option.some.inj (by simpa only [hp] using h) ▸ .read hc (.noPrior hp)
    · cases h
  | searchExisting i =>
    simp only [MatchWorld.next] at h
    split at h
    · next c x hc =>
      split_ifs at h with hmode
      exact Option.some.inj h ▸ moves_searchExisting hc (.absentTwoWay hmode)
    · next c x b hc => exact Option.some.inj h ▸ moves_searchExisting hc .absent
    · cases h
  | decide i runId =>
    simp only [MatchWorld.next] at h
    split at h
    · next c x b hc =>
      cases hd : E.decision c x b (w.db.ownAllocations c.documentId c.purchaseOrder.id) with
      | some found => exact Option.some.inj (by simpa only [hd] using h) ▸ .read hc (.decide runId hd)
      | none => exact Option.some.inj (by simpa only [hd] using h) ▸ .finish
    · cases h
  | assess i ids assessmentId caseId now =>
    simp only [MatchWorld.next] at h
    split at h
    · next c x b run drafts hc => exact Option.some.inj h ▸ moves_assess hc
    · cases h
  | repair i assessmentId caseId now =>
    simp only [MatchWorld.next] at h
    split at h
    · next run hc => exact Option.some.inj h ▸ moves_repair hc
    · cases h
  | commit i =>
    simp only [MatchWorld.next] at h
    split at h
    · next key visible rows hc => exact Option.some.inj h ▸ moves_commitRows hc
    · next r hc => exact Option.some.inj h ▸ moves_commitReceipt hc
    · next receiptId po reversal hc => exact Option.some.inj h ▸ .commitReversal hc
    · cases h
  | recover i =>
    simp only [MatchWorld.next] at h
    split at h
    · next key hc =>
      cases hf : w.db.findExisting key with
      | some run =>
        exact Option.some.inj (by simpa only [hf] using h) ▸ .read hc (.found (List.mem_of_find?_eq_some hf))
      | none => exact Option.some.inj (by simpa only [hf] using h) ▸ .finish
    · cases h
  | abort i =>
    simp only [MatchWorld.next] at h
    split_ifs at h
    exact Option.some.inj h ▸ .finish

theorem MatchMoves.new_run {E : MatchingEnv} {w w' : MatchWorld} {a : MatchAct} {run : MatchRun}
    (h : MatchMoves E w a w') (hrun : run ∈ w'.db.runs) (hnew : run ∉ w.db.runs) :
    ∃ i key visible rows, w.txns i = some (.ready key visible rows) ∧ w.db.Accepts rows ∧
      w'.db = w.db.insert rows ∧ run ∈ rows.runs := by
  cases h with
  | commit _ hi haccepts => exact ⟨_, _, _, _, hi, haccepts, rfl, (List.mem_append.1 hrun).resolve_left hnew⟩
  | _ => exact absurd hrun hnew

/-- States of the tables with the same rows of matches. -/
structure SameRows (db db' : Tables) : Prop where
  runs : db'.runs = db.runs
  contexts : db'.contexts = db.contexts
  allocations : db'.allocations = db.allocations
  features : db'.features = db.features
  assessments : db'.assessments = db.assessments
  reviews : db'.reviews = db.reviews

/-- `T` holds of the tables, and `P` of what every transaction has read and made. -/
structure MatchWorld.Holds (T : Tables → Prop) (P : Tables → TxnPhase → Prop) (w : MatchWorld) : Prop where
  tables : T w.db
  txns : ∀ i phase, w.txns i = some phase → P w.db phase

def TxnPhase.first : TxnPhase → Prop
  | .begun _ | .recovering _ | .receiving _ | .reversing _ _ _ => True
  | _ => False

section

variable {E : MatchingEnv} {T : Tables → Prop} {P : Tables → TxnPhase → Prop} {w w' : MatchWorld} {a : MatchAct}

/-- The transaction of `i` goes on or ends, and what the others know stays true. -/
theorem forall_txns_update {P P' : TxnPhase → Prop} {i : ℕ} {phase : Option TxnPhase}
    (h : ∀ j ph, w.txns j = some ph → P ph) (htxns : w'.txns = Function.update w.txns i phase)
    (hothers : ∀ j ph, j ≠ i → w.txns j = some ph → P ph → P' ph) (hphase : ∀ ph, phase = some ph → P' ph) :
    ∀ j ph, w'.txns j = some ph → P' ph := by
  intro j ph hj
  rw [htxns] at hj
  by_cases hji : j = i
  · subst hji
    exact hphase ph (by simpa using hj)
  · have hj : w.txns j = some ph := by simpa [hji] using hj
    exact hothers j ph hji hj (h j ph hj)

theorem MatchWorld.Holds.update {i : ℕ} {phase : Option TxnPhase} (h : w.Holds T P)
    (hmono : ∀ {db db' phase}, db.runs ⊆ db'.runs → P db phase → P db' phase) (htables : T w'.db)
    (hruns : w.db.runs ⊆ w'.db.runs) (htxns : w'.txns = Function.update w.txns i phase)
    (hphase : ∀ ph, phase = some ph → P w'.db ph) : w'.Holds T P :=
  ⟨htables, forall_txns_update h.txns htxns (fun _ _ _ _ hok => hmono hruns hok) hphase⟩

/-- What has to be shown for a step: that `P` stays true when runs are added, holds at the start of a
transaction and after every read, and that `T` holds after a commit of the rows of a match. -/
theorem MatchWorld.Holds.step (h : w.Holds T P) (hstep : MatchMoves E w a w')
    (hsame : ∀ {db db'}, SameRows db db' → T db → T db')
    (hmono : ∀ {db db' phase}, db.runs ⊆ db'.runs → P db phase → P db' phase)
    (hfirst : ∀ {db phase}, TxnPhase.first phase → P db phase)
    (hread : ∀ {phase phase'}, P w.db phase → Reads E w.db phase phase' → P w.db phase')
    (hcommit : ∀ {i key visible rows}, a = .commit i → w.txns i = some (.ready key visible rows) →
      w.db.Accepts rows → T (w.db.insert rows)) : w'.Holds T P := by
  have hends : ∀ phase : TxnPhase, (none : Option TxnPhase) = some phase → P w'.db phase := fun _ hph => by cases hph
  have hnew : ∀ {phase ph : TxnPhase}, phase.first → some phase = some ph → P w.db ph :=
    fun hf hph => hfirst (Option.some.inj hph ▸ hf)
  have htables : ∀ {db' : Tables}, SameRows w.db db' → T db' := fun hs => hsame hs h.tables
  have hothers : ∀ {db' : Tables}, SameRows w.db db' → MatchWorld.Holds T P { w with db := db' } :=
    fun hs => ⟨htables hs, fun j ph hj => hmono (hs.runs ▸ List.Subset.refl _) (h.txns j ph hj)⟩
  cases hstep with
  | order => exact hothers ⟨rfl, rfl, rfl, rfl, rfl, rfl⟩
  | extraction => exact hothers ⟨rfl, rfl, rfl, rfl, rfl, rfl⟩
  | receipt => exact hothers ⟨rfl, rfl, rfl, rfl, rfl, rfl⟩
  | lockReceipt => exact h.update hmono h.tables (List.Subset.refl _) rfl fun _ => hnew trivial
  | lockReversal => exact h.update hmono h.tables (List.Subset.refl _) rfl fun _ => hnew trivial
  | lockMatch => exact h.update hmono h.tables (List.Subset.refl _) rfl fun _ => hnew trivial
  | enterMatch => exact h.update hmono h.tables (List.Subset.refl _) rfl fun _ => hnew trivial
  | read hi hreads =>
    refine h.update hmono h.tables (List.Subset.refl _) rfl fun ph hph => ?_
    exact Option.some.inj hph ▸ hread (h.txns _ _ hi) hreads
  | finish => exact h.update hmono h.tables (List.Subset.refl _) rfl hends
  | rollback => exact h.update hmono h.tables (List.Subset.refl _) rfl fun _ => hnew trivial
  | commit ha hi haccepts =>
    exact h.update hmono (hcommit ha hi haccepts) (List.subset_append_left _ _) rfl hends
  | commitReceipt =>
    exact h.update hmono (htables ⟨rfl, rfl, rfl, rfl, rfl, rfl⟩) (List.Subset.refl _) rfl hends
  | commitReversal =>
    exact h.update hmono (htables ⟨rfl, rfl, rfl, rfl, rfl, rfl⟩) (List.Subset.refl _) rfl hends

end

end InvoiceOps
