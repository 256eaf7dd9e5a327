import InvoiceOps.Extraction.Supporting
import InvoiceOps.Matching.Call

/-! A payable case (`cases/service.py`): its attachments, confirmations and match contexts, the commands on it and
what the workers write to it. A command has two parts, what it does before it holds the row of the case and what
it does under the lock. The second part gets the row as the session has it, which may be older than the stored
row: a locked read does not refresh an object that the session has loaded before. -/

namespace InvoiceOps

open Calendar

inductive CaseStatus
  | draft
  | processing
  | needsConfirmation
  | readyToMatch
  | matched
  | needsReview
  | failed
deriving DecidableEq, Repr

inductive DocumentRole
  | invoice
  | purchaseOrder
  | goodsReceipt
  | deliveryNote
deriving DecidableEq, Repr

def DocumentRole.value : DocumentRole → String
  | .invoice => "INVOICE"
  | .purchaseOrder => "PURCHASE_ORDER"
  | .goodsReceipt => "GOODS_RECEIPT"
  | .deliveryNote => "DELIVERY_NOTE"

def DocumentRole.isReceipt : DocumentRole → Bool
  | .goodsReceipt | .deliveryNote => true
  | _ => false

inductive JobStatus
  | queued
  | processing
  | succeeded
  | failed
deriving DecidableEq, Repr

inductive CanonicalRecordType
  | purchaseOrder
  | goodsReceipt
deriving DecidableEq, Repr

structure PayableCase where
  status : CaseStatus
  version : ℕ
deriving DecidableEq, Repr

structure CaseDocument where
  id : Uuid
  documentId : Uuid
  role : DocumentRole
  attachmentOrder : ℕ
  activeSlot : Option DocumentRole
  supersedesId : Option Uuid
  idempotencyKey : String
  requestFingerprint : String

structure CaseConfirmation where
  id : Uuid
  caseDocumentId : Uuid
  extractionRunId : Uuid
  extractorVersion : String
  canonicalRecordType : CanonicalRecordType
  canonicalRecordId : Uuid
  correctedFields : List String
  correctionReason : Option String
  idempotencyKey : String
  requestFingerprint : String
  createdAt : ℕ

/-- `context_json`: what a match of the case was made from. -/
structure CaseContext where
  matchingMode : MatchingMode
  matchingPolicyVersion : String
  invoiceAttachmentId : Uuid
  invoiceDocumentId : Uuid
  invoiceExtractionRunId : Uuid
  purchaseOrderAttachmentId : Uuid
  purchaseOrderConfirmationId : Uuid
  purchaseOrderId : Uuid
  receiptConfirmationIds : List Uuid
  receiptIds : List Uuid
deriving DecidableEq

structure CaseMatchContext where
  matchRunId : Uuid
  contextJson : CaseContext
  idempotencyKey : String
  requestFingerprint : String

structure Document where
  id : Uuid
  sha256 : String
  jobStatus : JobStatus

/-- A supporting extraction run with the document and the role it belongs to. -/
structure SupportingRunRow where
  id : Uuid
  documentId : Uuid
  role : DocumentRole
  extractorVersion : String
  run : SupportingExtractionRun Json

/-- The case with its rows, and the rows about documents it reads. -/
structure CaseStore where
  case : PayableCase
  documents : List CaseDocument
  confirmations : List CaseConfirmation
  contexts : List CaseMatchContext
  uploads : List Document
  supporting : List SupportingRunRow

/-- A case as `create` makes it. -/
def CaseStore.created : CaseStore := ⟨⟨.draft, 1⟩, [], [], [], [], []⟩

inductive CaseError
  | caseNotFound
  | caseConflict (code message : String)
  | caseNotReady (message : String)
  | corrupt (message : String)
  /-- A schema that is built from the command refuses its values. -/
  | validation
  | integrity
  /-- A value does not fit its column. -/
  | dataError
  /-- A timestamp has no value in UTC. -/
  | overflow
  | matching (e : MatchError)
deriving DecidableEq, Repr

def staleCaseVersion : CaseError := .caseConflict "STALE_CASE_VERSION" "Case version is stale"

def caseKeyReused : CaseError := .caseConflict "IDEMPOTENCY_KEY_REUSED" "Idempotency key payload differs"

section

variable (s : CaseStore)

def CaseStore.active (role : DocumentRole) : Option CaseDocument := s.documents.find? (·.activeSlot = some role)

def CaseStore.hasSuccessor (id : Uuid) : Bool := s.documents.any (·.supersedesId = some id)

/-- `_confirmation`. -/
def CaseStore.confirmation (attachmentId : Uuid) : Option CaseConfirmation :=
  s.confirmations.find? (·.caseDocumentId = attachmentId)

/-- `_active_attachment`. -/
def CaseStore.activeAttachment (role : DocumentRole) : Except CaseError CaseDocument :=
  match s.active role with
  | some d => .ok d
  | none => .error (.caseNotReady ("Active " ++ role.value ++ " document is required"))

def CaseStore.activeReceipt (d : CaseDocument) : Bool := d.role.isReceipt && !s.hasSuccessor d.id

/-- The attachments `_status_after_confirmation` asks a confirmation of. -/
def CaseStore.activeSupport (d : CaseDocument) : Bool :=
  decide (d.activeSlot = some .purchaseOrder) || s.activeReceipt d

def CaseStore.statusAfterConfirmation (current : Uuid) : CaseStatus :=
  match s.active .purchaseOrder with
  | none => .needsConfirmation
  | some _ =>
    if ∀ d ∈ s.documents, s.activeSupport d = true → d.id ∈ current :: s.confirmations.map (·.caseDocumentId) then
      .readyToMatch
    else .needsConfirmation

/-- The confirmations of the active receipts, as the query of `match` orders them. -/
def CaseStore.receiptConfirmations : List CaseConfirmation :=
  (s.confirmations.filter fun c => c.canonicalRecordType = .goodsReceipt ∧
    ∃ d ∈ s.documents, d.id = c.caseDocumentId ∧ s.activeReceipt d = true).insertionSort
      fun c c' => c.createdAt < c'.createdAt ∨ c.createdAt = c'.createdAt ∧ c.id.str ≤ c'.id.str

/-- `_support_run`: a run that can be confirmed. -/
def CaseStore.supportRun (d : CaseDocument) (runId : Uuid) (version : String) : Except CaseError (SupportingRunRow × Json) :=
  match s.supporting.find? (·.id = runId) with
  | none => .error (.caseNotReady "Supporting extraction run is not confirmable")
  | some r =>
    match r.run.outputJson with
    | some output =>
      if r.documentId = d.documentId ∧ r.role = d.role ∧ r.extractorVersion = version ∧ r.run.status = .succeeded then
        .ok (r, output)
      else .error (.caseNotReady "Supporting extraction run is not confirmable")
    | none => .error (.caseNotReady "Supporting extraction run is not confirmable")

/-- `_confirmation_replay`. -/
def CaseStore.confirmationReplay (key fingerprint : String) : Except CaseError (Option CaseConfirmation) :=
  match s.confirmations.find? (·.idempotencyKey = key) with
  | none => .ok none
  | some c => if c.requestFingerprint = fingerprint then .ok (some c) else .error caseKeyReused

end

/-- The row a session writes back. A column whose value is the one the session has loaded is not written. -/
def PayableCase.write (stored loaded : PayableCase) (status : CaseStatus) : PayableCase where
  status := if status = loaded.status then stored.status else status
  version := loaded.version + 1

theorem PayableCase.write_self (c : PayableCase) (status : CaseStatus) : c.write c status = ⟨status, c.version + 1⟩ := by
  unfold PayableCase.write
  split_ifs with h
  · rw [h]
  · rfl

structure AttachCommand where
  role : DocumentRole
  idempotencyKey : String
  expectedCaseVersion : ℕ
  sha256 : String
  supersedesId : Option Uuid

structure PurchaseOrderLineValues where
  lineNumber : String
  description : String
  orderedQuantity : Decimal
  unitPrice : Decimal
  lineTotal : Option Decimal

structure PurchaseOrderValues where
  externalPoNumber : String
  vendorName : Option String
  currency : String
  lines : List PurchaseOrderLineValues

structure ReceiptLineValues where
  purchaseOrderLineNumber : String
  acceptedQuantity : Decimal
  positive : 0 < acceptedQuantity.toRat

structure ReceiptValues where
  externalReceiptNumber : String
  referencedPoNumber : String
  receivedAt : SentDateTime
  lines : List ReceiptLineValues

/-- `PurchaseOrderConfirmation` and `ReceiptConfirmation`; `payload` is the dump of the confirmed values. -/
structure ConfirmCommand (V : Type) where
  expectedCaseVersion : ℕ
  extractionRunId : Uuid
  extractorVersion : String
  confirmed : V
  payload : Json
  correctionReason : Option String
  idempotencyKey : String

structure CaseMatchCommand where
  expectedCaseVersion : ℕ
  idempotencyKey : String

structure ConfirmIds where
  confirmationId : Uuid
  recordId : Uuid
  lineIds : ℕ → Uuid
  createdAt : ℕ
  now : DateTime

/-- The matching services, and the comparison of what was extracted with what is confirmed
(`_po_corrected_fields`, `_receipt_corrected_fields`). -/
structure CaseEnv where
  matching : MatchingEnv
  poCorrectedFields : Json → ConfirmCommand PurchaseOrderValues → List String
  receiptCorrectedFields : Json → ConfirmCommand ReceiptValues → List String

section

variable (E : CaseEnv) (s : CaseStore)

/-- `_fingerprint`. -/
def CaseEnv.fingerprint (value : Json) : String := InvoiceOps.fingerprint E.matching.dumps value

def AttachCommand.json (c : AttachCommand) : Json :=
  .obj [("role", .str c.role.value), ("sha256", .str c.sha256), ("supersedes_id", optionJson (c.supersedesId.map Uuid.str))]

def confirmationJson (attachmentId : Uuid) (payload : Json) : Json :=
  .obj [("attachment_id", .str attachmentId.str), ("confirmed", payload)]

def MatchingMode.value : MatchingMode → String
  | .twoWay => "TWO_WAY"
  | .threeWay => "THREE_WAY"

def CaseContext.json (c : CaseContext) : Json :=
  .obj [("matching_mode", .str c.matchingMode.value), ("matching_policy_version", .str c.matchingPolicyVersion),
    ("invoice_attachment_id", .str c.invoiceAttachmentId.str), ("invoice_document_id", .str c.invoiceDocumentId.str),
    ("invoice_extraction_run_id", .str c.invoiceExtractionRunId.str),
    ("purchase_order_attachment_id", .str c.purchaseOrderAttachmentId.str),
    ("purchase_order_confirmation_id", .str c.purchaseOrderConfirmationId.str),
    ("purchase_order_id", .str c.purchaseOrderId.str),
    ("receipt_confirmation_ids", .arr (c.receiptConfirmationIds.map fun u => .str u.str)),
    ("receipt_ids", .arr (c.receiptIds.map fun u => .str u.str))]

end

section

variable (E : CaseEnv) (s : CaseStore) (db : Tables) (c : AttachCommand)

def DocumentRole.slot : DocumentRole → Option DocumentRole
  | .invoice => some .invoice
  | .purchaseOrder => some .purchaseOrder
  | _ => none

/-- `IngestionService.ingest`: a document with the same content is used again. -/
def CaseStore.ingest (sha256 : String) (newId : Uuid) : CaseStore × Uuid :=
  match s.uploads.find? (·.sha256 = sha256) with
  | some d => (s, d.id)
  | none => ({ s with uploads := s.uploads ++ [⟨newId, sha256, .queued⟩] }, newId)

def CaseStore.supersede : Except CaseError (List CaseDocument) :=
  match c.role.slot with
  | some slot =>
    match s.active slot with
    | some active =>
      if c.supersedesId = some active.id then
        .ok (s.documents.map fun d => if d.id = active.id then { d with activeSlot := none } else d)
      else .error (.caseConflict "ACTIVE_DOCUMENT_EXISTS" "Replace the active document by supplying its attachment id")
    | none =>
      if c.supersedesId = none then .ok s.documents
      else .error (.caseConflict "INVALID_SUPERSESSION" "Superseded attachment is not active")
  | none =>
    match c.supersedesId with
    | none => .ok s.documents
    | some id =>
      if (s.documents.find? (·.id = id)).any (fun d => decide (d.role = c.role) && !s.hasSuccessor d.id) then
        .ok s.documents
      else .error (.caseConflict "INVALID_SUPERSESSION" "Superseded receipt or delivery attachment is not active")

def CaseStore.jobDone (documentId : Uuid) : Bool :=
  (s.uploads.find? (·.id = documentId)).any (·.jobStatus = .succeeded)

/-- The invoice has been extracted before, under another attachment; `jobDone` is what was read of its job. -/
def AttachCommand.alreadyExtracted (jobDone : Bool) (documentId : Uuid) : Bool :=
  decide (c.role = .invoice) && jobDone && (db.currentExtraction documentId).isSome

def CaseStore.attachment (documentId attachmentId : Uuid) : CaseDocument where
  id := attachmentId
  documentId := documentId
  role := c.role
  attachmentOrder := (s.documents.map (·.attachmentOrder)).foldl max 0 + 1
  activeSlot := c.role.slot
  supersedesId := c.supersedesId
  idempotencyKey := c.idempotencyKey
  requestFingerprint := E.fingerprint c.json

/-- The part of `attach` under the lock, with the row and the state of the job as the session has loaded them. -/
def CaseStore.attachLocked (loaded : PayableCase) (jobDone : Bool) (documentId attachmentId : Uuid) :
    Except CaseError CaseStore :=
  if loaded.version ≠ c.expectedCaseVersion then
    .error (.caseConflict "STALE_CASE_VERSION" "Case version changed during upload")
  else if ∃ d ∈ s.documents, d.role = c.role ∧ d.documentId = documentId then
    .error (.caseConflict "DOCUMENT_ALREADY_ATTACHED" "Document is already attached in this role")
  else
    match s.supersede c with
    | .error e => .error e
    | .ok documents =>
      -- the unique keys: another attachment with the same key may have been committed in between
      if ∃ d ∈ s.documents, d.id = attachmentId ∨ d.idempotencyKey = c.idempotencyKey then
        .error (.caseConflict "ATTACHMENT_CONFLICT" "Attachment conflicted")
      else .ok
        { s with
          case := s.case.write loaded (if c.alreadyExtracted db jobDone documentId then .needsConfirmation else .processing)
          documents := documents ++ [s.attachment E c documentId attachmentId] }

def CaseStore.attachReplay : Except CaseError (Option CaseDocument) :=
  match s.documents.find? (·.idempotencyKey = c.idempotencyKey) with
  | none => .ok none
  | some d => if d.requestFingerprint = E.fingerprint c.json then .ok (some d) else .error caseKeyReused

end

section

variable (E : CaseEnv) (s : CaseStore) (d : CaseDocument)

def canonicalLine (ids : ConfirmIds) (v : PurchaseOrderLineValues × ℕ) : PurchaseOrderLine where
  id := ids.lineIds v.2
  purchaseOrderId := ids.recordId
  lineNumber := v.1.lineNumber
  description := v.1.description
  orderedQuantity := v.1.orderedQuantity
  unitPrice := v.1.unitPrice
  lineTotal := v.1.lineTotal

def canonicalLines (ids : ConfirmIds) (v : PurchaseOrderValues) : List PurchaseOrderLine :=
  (v.lines.zipIdx.map (canonicalLine ids)).insertionSort fun x y => x.lineNumber ≤ y.lineNumber

/-- The canonical purchase order of the confirmed values; the ids of its lines are a primary key. -/
def canonicalOrder (ids : ConfirmIds) (v : PurchaseOrderValues) : Option PurchaseOrder :=
  if h : ((canonicalLines ids v).map (·.id)).Nodup then some
    { id := ids.recordId
      externalPoNumber := v.externalPoNumber
      vendorName := v.vendorName
      currency := v.currency
      createdAt := ids.now
      lines := canonicalLines ids v
      line_ids := h }
  else none

/-- The number `GoodsReceiptCreate` keeps. -/
def ReceiptValues.number (v : ReceiptValues) : String := Text.strip v.externalReceiptNumber

/-- `GoodsReceiptCreate` asks for a number that is not blank and for a time with an offset. -/
def ReceiptValues.Creatable (v : ReceiptValues) : Prop := v.number ≠ "" ∧ v.receivedAt.offset.isSome = true

instance (v : ReceiptValues) : Decidable v.Creatable := inferInstanceAs (Decidable (_ ∧ _))

def canonicalReceiptLine (po : PurchaseOrder) (v : ReceiptLineValues) : Option GoodsReceiptLine :=
  (po.lines.reverse.find? (·.lineNumber = v.purchaseOrderLineNumber)).map fun line =>
    ⟨line.id, v.acceptedQuantity, v.positive⟩

def receiptLineJson (l : GoodsReceiptLine) : Json :=
  .obj [("purchase_order_line_id", .str l.purchaseOrderLineId.str), ("accepted_quantity", .str l.acceptedQuantity.text)]

/-- `receipt_request_fingerprint`, for a receipt at the instant `t`. -/
def CaseEnv.receiptRequestFingerprint (po : PurchaseOrder) (v : ReceiptValues) (t : DateTime)
    (lines : List GoodsReceiptLine) : String :=
  E.fingerprint (.obj [("purchase_order_id", .str po.id.str),
    ("external_receipt_number", .str v.number), ("received_at", .str t.utcText),
    ("lines", .arr ((sortById (·.purchaseOrderLineId) lines).map receiptLineJson))])

/-- The canonical receipt of the confirmed values at the instant `t`, on the lines with their numbers. -/
def canonicalReceipt (ids : ConfirmIds) (po : PurchaseOrder) (v : ReceiptValues) (t : DateTime)
    (lines : List GoodsReceiptLine) : Option GoodsReceipt :=
  if h : (lines.map (·.purchaseOrderLineId)).Nodup then some
    { id := ids.recordId
      purchaseOrderId := po.id
      externalReceiptNumber := v.number
      receivedAt := t
      requestFingerprint := E.receiptRequestFingerprint po v t lines
      lines := lines
      reversal := none
      line_ids := h }
  else none

/-- The part both confirmations share: the version, the run and the reason for corrections. -/
def CaseStore.confirmable {V : Type} (c : ConfirmCommand V) (correctedFields : Json → ConfirmCommand V → List String) :
    Except CaseError (SupportingRunRow × List String) :=
  if s.case.version ≠ c.expectedCaseVersion then .error staleCaseVersion
  else
    match s.supportRun d c.extractionRunId c.extractorVersion with
    | .error e => .error e
    | .ok (run, output) =>
      let corrected := correctedFields output c
      if corrected ≠ [] ∧ c.correctionReason.getD "" = "" then
        .error (.caseConflict "CORRECTION_REASON_REQUIRED" "Corrected values require a reason")
      else .ok (run, corrected)

def CaseEnv.confirmationRow {V : Type} (c : ConfirmCommand V) (ids : ConfirmIds) (type : CanonicalRecordType)
    (run : SupportingRunRow) (corrected : List String) : CaseConfirmation where
  id := ids.confirmationId
  caseDocumentId := d.id
  extractionRunId := run.id
  extractorVersion := run.extractorVersion
  canonicalRecordType := type
  canonicalRecordId := ids.recordId
  correctedFields := corrected
  correctionReason := c.correctionReason
  idempotencyKey := c.idempotencyKey
  requestFingerprint := E.fingerprint (confirmationJson d.id c.payload)
  createdAt := ids.createdAt

/-- A confirmation is stored: an attachment has at most one, and the row of the case is fresh under the lock. A row
that is refused is refused by a flush before the commit, where the error is not handled. -/
def CaseStore.confirm (c : CaseConfirmation) : Except CaseError CaseStore :=
  if ∃ c' ∈ s.confirmations, c'.id = c.id ∨ c'.caseDocumentId = c.caseDocumentId ∨ c'.idempotencyKey = c.idempotencyKey then
    .error .integrity
  else .ok
    { s with
      case := s.case.write s.case (s.statusAfterConfirmation c.caseDocumentId)
      confirmations := s.confirmations ++ [c] }

/-- `_confirm_po` under the lock: the case with its confirmation, and the new purchase order. -/
def CaseStore.confirmPo (c : ConfirmCommand PurchaseOrderValues) (ids : ConfirmIds) :
    Except CaseError (CaseStore × PurchaseOrder) :=
  match s.confirmable d c E.poCorrectedFields with
  | .error e => .error e
  | .ok (run, corrected) =>
    match canonicalOrder ids c.confirmed with
    | none => .error .integrity
    | some po => (s.confirm (E.confirmationRow d c ids .purchaseOrder run corrected)).map fun s' => (s', po)

/-- `_confirm_receipt` under the lock: the case with its confirmation, and the new receipt. -/
def CaseStore.confirmReceipt (db : Tables) (c : ConfirmCommand ReceiptValues) (ids : ConfirmIds) :
    Except CaseError (CaseStore × GoodsReceipt) :=
  match s.confirmable d c E.receiptCorrectedFields with
  | .error e => .error e
  | .ok (run, corrected) =>
    match s.activeAttachment .purchaseOrder with
    | .error e => .error e
    | .ok poAttachment =>
      match s.confirmation poAttachment.id with
      | none => .error (.caseNotReady "Purchase order must be confirmed first")
      | some poConfirmation =>
        match db.purchaseOrder poConfirmation.canonicalRecordId with
        | none => .error (.corrupt "confirmed purchase order is missing")
        | some po =>
          if c.confirmed.referencedPoNumber ≠ po.externalPoNumber then
            .error (.caseConflict "PO_REFERENCE_MISMATCH" "Receipt references another PO")
          else
            match c.confirmed.lines.mapM (canonicalReceiptLine po) with
            | none => .error (.caseConflict "PO_LINE_NOT_FOUND" "Receipt references an unknown PO line")
            | some lines =>
              if c.confirmed.Creatable then
                match c.confirmed.receivedAt.toUtc with
                | none => .error .overflow
                | some t =>
                  match canonicalReceipt E ids po c.confirmed t lines with
                  | none => .error .integrity
                  | some receipt =>
                    if db.AcceptsReceipt receipt then
                      (s.confirm (E.confirmationRow d c ids .goodsReceipt run corrected)).map fun s' => (s', receipt)
                    else .error .integrity
              else .error .validation

end

/-- What `match` has read under its first lock: a run that is returned at once, or the context of a new match. -/
inductive MatchPlan
  | replay (run : MatchRun)
  | call (context : CaseContext)

section

variable (E : CaseEnv) (s : CaseStore) (db : Tables) (c : CaseMatchCommand)

def Tables.storedRun (context : CaseMatchContext) : Except CaseError MatchRun :=
  match db.runs.find? (·.id = context.matchRunId) with
  | some run => .ok run
  | none => .error (.corrupt "case match context is corrupt")

def CaseStore.contextWith (invoice po : CaseDocument) (x : ExtractionRun) (p : CaseConfirmation) : CaseContext :=
  let mode := if s.receiptConfirmations = [] then MatchingMode.twoWay else .threeWay
  { matchingMode := mode
    matchingPolicyVersion := E.matching.policyVersion mode
    invoiceAttachmentId := invoice.id
    invoiceDocumentId := invoice.documentId
    invoiceExtractionRunId := x.id
    purchaseOrderAttachmentId := po.id
    purchaseOrderConfirmationId := p.id
    purchaseOrderId := p.canonicalRecordId
    receiptConfirmationIds := s.receiptConfirmations.map (·.id)
    receiptIds := s.receiptConfirmations.map (·.canonicalRecordId) }

def CaseStore.currentContext : Except CaseError CaseContext :=
  match s.activeAttachment .invoice with
  | .error e => .error e
  | .ok invoice =>
    match s.activeAttachment .purchaseOrder with
    | .error e => .error e
    | .ok po =>
      match db.currentExtraction invoice.documentId with
      | none => .error (.caseNotReady "Invoice extraction is not ready")
      | some x =>
        match s.confirmation po.id with
        | none => .error (.caseNotReady "Purchase order is not confirmed")
        | some p => .ok (s.contextWith E invoice po x p)

/-- `match` up to its call of the matching service. -/
def CaseStore.planMatch : Except CaseError MatchPlan :=
  match s.contexts.find? (·.idempotencyKey = c.idempotencyKey) with
  | some context => (db.storedRun context).map .replay
  | none =>
    if s.case.version ≠ c.expectedCaseVersion then .error staleCaseVersion
    else
      match s.currentContext E db with
      | .error e => .error e
      | .ok context =>
        match s.contexts.find? (·.requestFingerprint = E.fingerprint context.json) with
        | some stored => (db.storedRun stored).map .replay
        | none => .ok (.call context)

/-- `match` after the matching service has returned, under its second lock. -/
def CaseStore.finishMatch (loaded : PayableCase) (context : CaseContext) (run : MatchRun) : Except CaseError CaseStore :=
  if ∃ x ∈ s.contexts, x.idempotencyKey = c.idempotencyKey ∨ x.requestFingerprint = E.fingerprint context.json then
    .error .integrity
  else .ok
    { s with
      case := s.case.write loaded
        (if run.decision = .matched ∧ db.reviews.cases.find? (·.matchRunId = run.id) = none then .matched else .needsReview)
      contexts := s.contexts ++ [⟨run.id, context, c.idempotencyKey, E.fingerprint context.json⟩] }

end

section

variable (s : CaseStore)

def CaseStore.setStatus (status : CaseStatus) : CaseStore := { s with case := ⟨status, s.case.version + 1⟩ }

def CaseStore.invoiceActive (documentId : Uuid) : Bool :=
  s.documents.any fun d => d.documentId = documentId ∧ d.activeSlot = some .invoice

/-- The status of a job is written; a worker that has loaded the same status writes nothing. -/
def Document.withJob (documentId : Uuid) (loaded status : JobStatus) (d : Document) : Document :=
  if d.id = documentId ∧ status ≠ loaded then { d with jobStatus := status } else d

def CaseStore.setJob (documentId : Uuid) (loaded status : JobStatus) : CaseStore :=
  { s with uploads := s.uploads.map (Document.withJob documentId loaded status) }

/-- `run_job` after the extraction of an invoice; `active` is what it has read before it has the row. -/
def CaseStore.jobSucceeded (documentId : Uuid) (active : Bool) : CaseStore :=
  let s' := s.setJob documentId .processing .succeeded
  if active = true ∧ s.case.status = .processing then s'.setStatus .needsConfirmation else s'

/-- `record_failure` of a job that is given up, with the status of the job as it was loaded. -/
def CaseStore.jobFailed (documentId : Uuid) (loaded : JobStatus) (active : Bool) : CaseStore :=
  let s' := s.setJob documentId loaded .failed
  if active = true ∧ s.case.status ≠ .failed then s'.setStatus .failed else s'

def CaseStore.storeRun (r : SupportingRunRow) : CaseStore :=
  { s with supporting := s.supporting.filter (·.id ≠ r.id) ++ [r] }

/-- `_is_active`. -/
def CaseStore.isActive (d : CaseDocument) : Bool :=
  match d.role with
  | .purchaseOrder => d.activeSlot = some .purchaseOrder
  | _ => !s.hasSuccessor d.id

/-- `_record_success`. -/
def CaseStore.supportSucceeded (d : CaseDocument) (r : SupportingRunRow) : CaseStore :=
  if s.isActive d = true ∧ (s.case.status = .processing ∨ s.case.status = .failed) then
    (s.storeRun r).setStatus .needsConfirmation
  else s.storeRun r

/-- A supporting document that cannot be extracted; the attachment may have been superseded. -/
def CaseStore.supportFailed (r : SupportingRunRow) : CaseStore := (s.storeRun r).setStatus .failed

/-- `mark_operational_failure`. -/
def CaseStore.supportMarked (d : CaseDocument) (r : SupportingRunRow) : CaseStore :=
  if s.isActive d = true ∧ s.case.status ≠ .failed then (s.storeRun r).setStatus .failed else s.storeRun r

end

end InvoiceOps
