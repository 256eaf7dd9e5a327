import InvoiceOps.Cases.Corrections
import InvoiceOps.Cases.Readiness
import InvoiceOps.Events.Stream
import InvoiceOps.Matching.Storing

/-! Confirmations and everything that can refuse them (`cases/service.py`, `models.py`, `schemas/receipts.py`). The
canonical record, the confirmation and the event are flushed one after the other, and only the commit after them is
guarded: whatever a table refuses leaves the service as it was raised. -/

namespace InvoiceOps

open Calendar

/-- `PurchaseOrderConfirmation`. A key or a reason of blanks becomes none. -/
structure PurchaseOrderConfirmation where
  expectedCaseVersion : ℕ
  extractionRunId : Uuid
  extractorVersion : String
  confirmed : PurchaseOrderConfirmationValues
  correctionReason : Option String
  idempotencyKey : Option String
  version_pos : 1 ≤ expectedCaseVersion
  extractor_length : 1 ≤ extractorVersion.length ∧ extractorVersion.length ≤ 50
  reason_text : ∀ r ∈ correctionReason, NonBlank r ∧ r.length ≤ 2000
  key_text : ∀ k ∈ idempotencyKey, NonBlank k ∧ k.length ≤ 200

/-- `ReceiptConfirmation`. Its key and its reason are kept as they are. -/
structure ReceiptConfirmation where
  expectedCaseVersion : ℕ
  extractionRunId : Uuid
  extractorVersion : String
  confirmed : ReceiptConfirmationValues
  correctionReason : Option String
  idempotencyKey : String
  version_pos : 1 ≤ expectedCaseVersion
  extractor_length : 1 ≤ extractorVersion.length ∧ extractorVersion.length ≤ 50
  reason_length : ∀ r ∈ correctionReason, r.length ≤ 2000
  key_length : 1 ≤ idempotencyKey.length ∧ idempotencyKey.length ≤ 200

/-- What both commands have. -/
structure ConfirmRequest where
  expectedCaseVersion : ℕ
  extractionRunId : Uuid
  extractorVersion : String
  payload : Json
  correctionReason : Option String
  idempotencyKey : Option String

/-- The services of a case, and how the schemas dump confirmed values and read stored outputs. -/
structure ConfirmEnv where
  case : CaseEnv
  dumpOrder : PurchaseOrderConfirmationValues → Json
  dumpReceipt : ReceiptConfirmationValues → Json
  readOrder : Json → Option ExtractedPurchaseOrder
  readReceipt : Json → Option ExtractedGoodsReceipt

def PurchaseOrderConfirmation.request (E : ConfirmEnv) (c : PurchaseOrderConfirmation) : ConfirmRequest where
  expectedCaseVersion := c.expectedCaseVersion
  extractionRunId := c.extractionRunId
  extractorVersion := c.extractorVersion
  payload := E.dumpOrder c.confirmed
  correctionReason := c.correctionReason
  idempotencyKey := c.idempotencyKey

def ReceiptConfirmation.request (E : ConfirmEnv) (c : ReceiptConfirmation) : ConfirmRequest where
  expectedCaseVersion := c.expectedCaseVersion
  extractionRunId := c.extractionRunId
  extractorVersion := c.extractorVersion
  payload := E.dumpReceipt c.confirmed
  correctionReason := c.correctionReason
  idempotencyKey := some c.idempotencyKey

def ConfirmRequest.reasoned (q : ConfirmRequest) : Bool := q.correctionReason.getD "" ≠ ""

/-- The database takes no text with the character NUL. -/
def noNul (s : String) : Prop := Char.ofNat 0 ∉ s.toList

instance (s : String) : Decidable (noNul s) := inferInstanceAs (Decidable (_ ∉ _))

/-- The text fits a column of that length. -/
def TextFits (length : ℕ) (s : String) : Prop := s.length ≤ length ∧ noNul s

instance (length : ℕ) (s : String) : Decidable (TextFits length s) := inferInstanceAs (Decidable (_ ∧ _))

/-- The number fits an `Integer` column. -/
def IntegerFits (n : ℕ) : Prop := n < 2 ^ 31

instance (n : ℕ) : Decidable (IntegerFits n) := inferInstanceAs (Decidable (_ < _))

structure CaseEventRow extends CaseEvent where
  eventKey : String
  sequenceNumber : ℕ

/-- The case with its rows and events, and the tables of the canonical records. -/
structure CaseDatabase where
  store : CaseStore
  tables : Tables
  events : List CaseEventRow

def PurchaseOrderConfirmationValues.values (v : PurchaseOrderConfirmationValues) : PurchaseOrderValues where
  externalPoNumber := v.externalPoNumber
  vendorName := v.vendorName
  currency := v.currency
  lines := v.lines.map fun l => ⟨l.lineNumber, l.description, l.orderedQuantity, l.unitPrice, l.lineTotal⟩

theorem ReceiptConfirmationLine.positive (l : ReceiptConfirmationLine) : 0 < l.acceptedQuantity.toRat := by
  have hpos := (Decimal.lt_iff _ _).1 l.amounts.2.1
  simpa [Decimal.zero, Decimal.toRat, Decimal.int] using hpos

def ReceiptConfirmationValues.values (v : ReceiptConfirmationValues) : ReceiptValues where
  externalReceiptNumber := v.externalReceiptNumber
  referencedPoNumber := v.referencedPoNumber
  receivedAt := v.receivedAt
  lines := v.lines.map fun l => ⟨l.purchaseOrderLineNumber, l.acceptedQuantity, l.positive⟩

/-- A line of an order as its columns store it; none is a `DataError`. -/
def PurchaseOrderLine.stored (l : PurchaseOrderLine) : Option PurchaseOrderLine :=
  if TextFits 50 l.lineNumber ∧ TextFits 500 l.description then
    match roundedColumn l.orderedQuantity, roundedColumn l.unitPrice, l.lineTotal.map roundedColumn with
    | some q, some p, none => some { l with orderedQuantity := q, unitPrice := p }
    | some q, some p, some (some t) => some { l with orderedQuantity := q, unitPrice := p, lineTotal := some t }
    | _, _, _ => none
  else none

/-- A purchase order as its columns store it. -/
def PurchaseOrder.stored (po : PurchaseOrder) : Except CaseError PurchaseOrder :=
  if TextFits 100 po.externalPoNumber ∧ ∀ v ∈ po.vendorName, TextFits 255 v then
    match po.lines.mapM PurchaseOrderLine.stored with
    | none => .error .dataError
    | some lines =>
      if h : (lines.map (·.id)).Nodup then .ok { po with lines := lines, line_ids := h } else .error .integrity
  else .error .dataError

/-- A line of a receipt as its columns store it; none where its quantity is not stored as a positive one. -/
def GoodsReceiptLine.stored (l : GoodsReceiptLine) : Option GoodsReceiptLine :=
  (roundedColumn l.acceptedQuantity).bind fun q =>
    if h : 0 < q.toRat then some ⟨l.purchaseOrderLineId, q, h⟩ else none

/-- A receipt as its columns store it. A quantity that is rounded to zero violates a check. -/
def GoodsReceipt.stored (r : GoodsReceipt) : Except CaseError GoodsReceipt :=
  if TextFits 100 r.externalReceiptNumber ∧ ∀ l ∈ r.lines, (roundedColumn l.acceptedQuantity).isSome then
    match r.lines.mapM GoodsReceiptLine.stored with
    | none => .error .integrity
    | some lines =>
      if h : (lines.map (·.purchaseOrderLineId)).Nodup then .ok { r with lines := lines, line_ids := h }
      else .error .integrity
  else .error .dataError

def documentConfirmedKey (confirmationId : Uuid) : String := "document.confirmed:" ++ confirmationId.str

def CanonicalRecordType.value : CanonicalRecordType → String
  | .purchaseOrder => "PURCHASE_ORDER"
  | .goodsReceipt => "GOODS_RECEIPT"

def documentConfirmed (d : CaseDocument) (c : CaseConfirmation) (sequenceNumber : ℕ) : CaseEventRow where
  eventType := "DOCUMENT_CONFIRMED"
  stage := "confirmation"
  status := "completed"
  message := "Supporting document confirmed into a canonical record"
  documentId := some d.documentId
  documentRole := some d.role
  payload := [("confirmation_id", .str c.id.str), ("canonical_record_type", .str c.canonicalRecordType.value),
    ("corrected_fields", .arr (c.correctedFields.map .str))]
  occurredAt := c.createdAt
  eventKey := documentConfirmedKey c.id
  sequenceNumber := sequenceNumber

section

variable (E : ConfirmEnv) (db : CaseDatabase) (d : CaseDocument) (q : ConfirmRequest) (ids : ConfirmIds)

def CaseDatabase.nextSequence : ℕ := (db.events.map (·.sequenceNumber)).foldl max 0 + 1

/-- `_confirmation_event`, after its first flush. -/
def CaseDatabase.confirmationEvent (c : CaseConfirmation) : Except CaseError CaseDatabase :=
  if documentConfirmedKey c.id ∈ db.events.map (·.eventKey) then .ok db
  else if IntegerFits db.nextSequence then .ok { db with events := db.events ++ [documentConfirmed d c db.nextSequence] }
  else .error .dataError

def ConfirmRequest.fingerprint : String := E.case.fingerprint (confirmationJson d.id q.payload)

/-- The row of a confirmation with the key. -/
def ConfirmRequest.row (type : CanonicalRecordType) (run : SupportingRunRow) (corrected : List String) (key : String) :
    CaseConfirmation where
  id := ids.confirmationId
  caseDocumentId := d.id
  extractionRunId := run.id
  extractorVersion := run.extractorVersion
  canonicalRecordType := type
  canonicalRecordId := ids.recordId
  correctedFields := corrected
  correctionReason := q.correctionReason
  idempotencyKey := key
  requestFingerprint := q.fingerprint E d
  createdAt := ids.createdAt

/-- The confirmation and the row of the case are flushed by the first query after them, then the event is appended
and everything is committed. The column of the key is not nullable. -/
def CaseDatabase.record (type : CanonicalRecordType) (run : SupportingRunRow) (corrected : List String) :
    Except CaseError (CaseDatabase × CaseConfirmation) :=
  match q.idempotencyKey with
  | none => .error .integrity
  | some key =>
    if (∀ r ∈ q.correctionReason, noNul r) ∧ IntegerFits (db.store.case.version + 1) then
      match db.store.confirm (q.row E d ids type run corrected key) with
      | .error e => .error e
      | .ok s =>
        ({ db with store := s }.confirmationEvent d (q.row E d ids type run corrected key)).map
          fun db' => (db', q.row E d ids type run corrected key)
    else .error .dataError

/-- `_confirmation_replay`. -/
def CaseDatabase.confirmationReplay : Except CaseError (Option CaseConfirmation) :=
  match q.idempotencyKey with
  | none => .ok none
  | some key => if noNul key then db.store.confirmationReplay key (q.fingerprint E d) else .error .dataError

/-- A confirmation of a run, with the fields that it compares and the canonical record, which comes with the tables it
is inserted into. -/
def CaseDatabase.confirmRun (corrected : Option (List String)) (type : CanonicalRecordType)
    (canonical : Except CaseError Tables) (run : SupportingRunRow) : Except CaseError (CaseDatabase × CaseConfirmation) :=
  match corrected with
  | none => .error .validation
  | some corrected =>
    if corrected ≠ [] ∧ q.reasoned = false then
      .error (.caseConflict "CORRECTION_REASON_REQUIRED" "Corrected values require a reason")
    else
      match canonical with
      | .error e => .error e
      | .ok tables => { db with tables := tables }.record E d q ids type run corrected

/-- What `_confirm_po` and `_confirm_receipt` share: they differ in the fields they compare and in the canonical
record. -/
def CaseDatabase.confirm (correctedFields : Json → Option (List String)) (type : CanonicalRecordType)
    (canonical : Except CaseError Tables) : Except CaseError (CaseDatabase × CaseConfirmation) :=
  match db.confirmationReplay E d q with
  | .error e => .error e
  | .ok (some c) => .ok (db, c)
  | .ok none =>
    if db.store.case.version ≠ q.expectedCaseVersion then .error staleCaseVersion
    else
      match db.store.supportRun d q.extractionRunId q.extractorVersion with
      | .error e => .error e
      | .ok (run, output) => db.confirmRun E d q ids (correctedFields output) type canonical run

/-- The purchase order is added and flushed. -/
def CaseDatabase.insertOrder (v : PurchaseOrderConfirmationValues) : Except CaseError Tables :=
  match canonicalOrder ids v.values with
  | none => .error .integrity
  | some po => po.stored.map fun po' => { db.tables with purchaseOrders := db.tables.purchaseOrders ++ [po'] }

/-- The receipt of the confirmed values on the purchase order is added and flushed. -/
def CaseDatabase.insertReceiptOn (po : PurchaseOrder) (v : ReceiptConfirmationValues) : Except CaseError Tables :=
  match v.values.lines.mapM (canonicalReceiptLine po) with
  | none => .error (.caseConflict "PO_LINE_NOT_FOUND" "Receipt references an unknown PO line")
  | some lines =>
    if v.values.Creatable then
      match v.receivedAt.toUtc with
      | none => .error .overflow
      | some t =>
        match canonicalReceipt E.case ids po v.values t lines with
        | none => .error .integrity
        | some receipt =>
          match receipt.stored with
          | .error e => .error e
          | .ok r =>
            if db.tables.AcceptsReceipt r then .ok { db.tables with receipts := db.tables.receipts ++ [r] }
            else .error .integrity
    else .error .validation

def CaseDatabase.insertReceipt (v : ReceiptConfirmationValues) : Except CaseError Tables :=
  match db.store.activeAttachment .purchaseOrder with
  | .error e => .error e
  | .ok poAttachment =>
    match db.store.confirmation poAttachment.id with
    | none => .error (.caseNotReady "Purchase order must be confirmed first")
    | some poConfirmation =>
      match db.tables.purchaseOrder poConfirmation.canonicalRecordId with
      | none => .error (.corrupt "confirmed purchase order is missing")
      | some po =>
        if v.referencedPoNumber ≠ po.externalPoNumber then
          .error (.caseConflict "PO_REFERENCE_MISMATCH" "Receipt references another PO")
        else db.insertReceiptOn E ids po v

/-- An error leaves the transaction, which is rolled back. -/
def CaseDatabase.settle (result : Except CaseError (CaseDatabase × CaseConfirmation)) :
    CaseDatabase × Except CaseError CaseConfirmation :=
  match result with
  | .ok found => (found.1, .ok found.2)
  | .error e => (db, .error e)

/-- `confirm_purchase_order` -/
def CaseDatabase.confirmPurchaseOrder (c : PurchaseOrderConfirmation) :
    CaseDatabase × Except CaseError CaseConfirmation :=
  db.settle
    (match db.store.activeAttachment .purchaseOrder with
    | .error e => .error e
    | .ok d => db.confirm E d (c.request E) ids
        (fun output => (E.readOrder output).map fun x => poCorrectedFields x c.confirmed) .purchaseOrder
        (db.insertOrder ids c.confirmed))

/-- `confirm_receipt` -/
def CaseDatabase.confirmReceipt (documentId : Uuid) (c : ReceiptConfirmation) :
    CaseDatabase × Except CaseError CaseConfirmation :=
  db.settle
    (match db.store.receiptAttachment documentId with
    | none => .error .caseNotFound
    | some d =>
      if db.store.hasSuccessor d.id then
        .error (.caseConflict "ATTACHMENT_SUPERSEDED" "A superseded receipt cannot be confirmed")
      else db.confirm E d (c.request E) ids
        (fun output => (E.readReceipt output).map fun x => receiptCorrectedFields x c.confirmed) .goodsReceipt
        (db.insertReceipt E ids c.confirmed))

end

def CaseError.Known : CaseError → Prop
  | .caseNotFound | .caseConflict .. | .caseNotReady .. => True
  | _ => False

/-- The tables have one record more, with that id. -/
def NewRecord (type : CanonicalRecordType) (id : Uuid) (tables tables' : Tables) : Prop :=
  match type with
  | .purchaseOrder => ∃ po : PurchaseOrder, po.id = id ∧
      tables' = { tables with purchaseOrders := tables.purchaseOrders ++ [po] }
  | .goodsReceipt => ∃ r : GoodsReceipt, r.id = id ∧ tables' = { tables with receipts := tables.receipts ++ [r] }

/-- One canonical record, one confirmation, one event and one step of the version. -/
structure CommitsOne (db : CaseDatabase) (type : CanonicalRecordType) (c : CaseConfirmation) (db' : CaseDatabase) :
    Prop where
  record : c.canonicalRecordType = type ∧ NewRecord type c.canonicalRecordId db.tables db'.tables
  store : db'.store = { db.store with
    case := ⟨db.store.statusAfterConfirmation c.caseDocumentId, db.store.case.version + 1⟩
    confirmations := db.store.confirmations ++ [c] }
  event : ∃ d n, db'.events = db.events ++ [documentConfirmed d c n]

def alreadyConfirmed : CaseError :=
  .caseConflict "ATTACHMENT_ALREADY_CONFIRMED" "This attachment already has a confirmation"

def NewKey (db : CaseDatabase) (q : ConfirmRequest) : Prop :=
  ∀ key ∈ q.idempotencyKey, key ∉ db.store.confirmations.map (·.idempotencyKey)

/-- The attachment has a confirmation, and the command has a new key and the current version. -/
def Reconfirms (db : CaseDatabase) (d : CaseDocument) (q : ConfirmRequest) : Prop :=
  d.id ∈ db.store.confirmations.map (·.caseDocumentId) ∧ NewKey db q ∧ db.store.case.version = q.expectedCaseVersion

/-- The earlier confirmation of the same command. -/
structure ReplayOf (E : ConfirmEnv) (db : CaseDatabase) (d : CaseDocument) (q : ConfirmRequest) (c : CaseConfirmation) :
    Prop where
  stored : c ∈ db.store.confirmations
  key : q.idempotencyKey = some c.idempotencyKey
  fingerprint : c.requestFingerprint = q.fingerprint E d

/-- A command on the attachment succeeds, is a replay or is refused with an error callers are told of; and an attachment
that has a confirmation is not confirmed again. -/
structure Settled (E : ConfirmEnv) (db : CaseDatabase) (attachment : Option CaseDocument) (q : ConfirmRequest)
    (type : CanonicalRecordType) (result : CaseDatabase × Except CaseError CaseConfirmation) : Prop where
  outcome : (∃ c, result.2 = .ok c ∧ CommitsOne db type c result.1) ∨
    (∃ c d, result = (db, .ok c) ∧ attachment = some d ∧ ReplayOf E db d q c) ∨
    ∃ e, result = (db, .error e) ∧ e.Known
  again : ∀ d, attachment = some d → Reconfirms db d q → result = (db, .error alreadyConfirmed)

/-- The ids a confirmation makes up are new. -/
structure ConfirmIds.Fresh (ids : ConfirmIds) (db : CaseDatabase) (lines : ℕ) : Prop where
  confirmation : ids.confirmationId ∉ db.store.confirmations.map (·.id)
  event : documentConfirmedKey ids.confirmationId ∉ db.events.map (·.eventKey)
  receipt : ids.recordId ∉ db.tables.receipts.map (·.id)
  lineIds : Set.InjOn ids.lineIds (Set.Iio lines)

/-- The last flushes take the key, the reason, the version and the number of the event. -/
structure Recordable (db : CaseDatabase) (q : ConfirmRequest) : Prop where
  key : q.idempotencyKey.isSome = true
  reason : ∀ r ∈ q.correctionReason, noNul r
  version : IntegerFits (db.store.case.version + 1)
  event : IntegerFits db.nextSequence

/-- The key is new, the version is the current one and the run can be confirmed. -/
structure Proceeds (db : CaseDatabase) (d : CaseDocument) (q : ConfirmRequest) (run : SupportingRunRow) (output : Json) :
    Prop where
  key : NewKey db q
  version : db.store.case.version = q.expectedCaseVersion
  run : db.store.supportRun d q.extractionRunId q.extractorVersion = .ok (run, output)

/-- The columns of a purchase order take the confirmed values. -/
structure OrderFits (v : PurchaseOrderConfirmationValues) : Prop where
  number : TextFits 100 v.externalPoNumber
  vendor : ∀ n ∈ v.vendorName, TextFits 255 n
  texts : ∀ l ∈ v.lines, TextFits 50 l.lineNumber ∧ TextFits 500 l.description
  amounts : ∀ l ∈ v.lines, (roundedColumn l.orderedQuantity).isSome ∧ (roundedColumn l.unitPrice).isSome ∧
    ∀ t ∈ l.lineTotal, (roundedColumn t).isSome

/-- The number of the receipt is not blank and new on the purchase order, its time has an offset and lies in the years 1
to 9999 in UTC, and its quantities are stored as positive ones. -/
structure ReceiptFits (db : CaseDatabase) (po : PurchaseOrder) (v : ReceiptConfirmationValues) : Prop where
  number : Text.strip v.externalReceiptNumber ≠ "" ∧ noNul (Text.strip v.externalReceiptNumber)
  unused : Text.strip v.externalReceiptNumber ∉ (db.tables.receiptsOf po.id).map (·.externalReceiptNumber)
  offset : v.receivedAt.offset.isSome = true
  utc : 0 ≤ v.receivedAt.instant ∧ v.receivedAt.instant < maxInstant
  quantities : ∀ l ∈ v.lines, StoredPositive l.acceptedQuantity

/-- Nothing is corrected, or a reason is given. -/
def Reasoned (q : ConfirmRequest) (corrected : List String) : Prop := corrected = [] ∨ q.reasoned = true

/-- The key can be looked up, the attachment is not confirmed again, and where the command gets as far as the columns they
take its values. -/
structure OrderConfirmable (E : ConfirmEnv) (db : CaseDatabase) (d : CaseDocument) (c : PurchaseOrderConfirmation) :
    Prop where
  key : ∀ k ∈ c.idempotencyKey, noNul k
  first : ¬ Reconfirms db d (c.request E)
  fits : ∀ run output, Proceeds db d (c.request E) run output → ∃ x, E.readOrder output = some x ∧
    (Reasoned (c.request E) (poCorrectedFields x c.confirmed) → OrderFits c.confirmed ∧ Recordable db (c.request E))

/-- The receipt refers to the purchase order and to lines of it. -/
def RefersTo (po : PurchaseOrder) (v : ReceiptConfirmationValues) : Prop :=
  v.referencedPoNumber = po.externalPoNumber ∧
    ∀ l ∈ v.lines, l.purchaseOrderLineNumber ∈ po.lines.map (·.lineNumber)

structure ReceiptConfirmable (E : ConfirmEnv) (db : CaseDatabase) (d : CaseDocument) (c : ReceiptConfirmation) :
    Prop where
  first : ¬ Reconfirms db d (c.request E)
  key : db.store.hasSuccessor d.id = false → noNul c.idempotencyKey
  fits : db.store.hasSuccessor d.id = false → ∀ run output, Proceeds db d (c.request E) run output →
    ∃ x, E.readReceipt output = some x ∧ (Reasoned (c.request E) (receiptCorrectedFields x c.confirmed) →
      ∀ a p, db.store.active .purchaseOrder = some a → db.store.confirmation a.id = some p →
        ∃ po, db.tables.purchaseOrder p.canonicalRecordId = some po ∧
          (RefersTo po c.confirmed → ReceiptFits db po c.confirmed ∧ Recordable db (c.request E)))

section

variable {E : ConfirmEnv} {db db' : CaseDatabase} {d : CaseDocument} {q : ConfirmRequest} {ids : ConfirmIds}
  {type : CanonicalRecordType} {c : CaseConfirmation}

theorem confirmationEvent_ok (h : db.confirmationEvent d c = .ok db')
    (hfresh : documentConfirmedKey c.id ∉ db.events.map (·.eventKey)) :
    db' = { db with events := db.events ++ [documentConfirmed d c db.nextSequence] } := by
  unfold CaseDatabase.confirmationEvent at h
  split_ifs at h
  exact (Except.ok.inj h).symm

theorem record_ok {run : SupportingRunRow} {corrected : List String}
    (h : db.record E d q ids type run corrected = .ok (db', c))
    (hfresh : documentConfirmedKey ids.confirmationId ∉ db.events.map (·.eventKey)) :
    c.canonicalRecordType = type ∧ c.canonicalRecordId = ids.recordId ∧ db'.tables = db.tables ∧
      db'.store = { db.store with
        case := ⟨db.store.statusAfterConfirmation c.caseDocumentId, db.store.case.version + 1⟩
        confirmations := db.store.confirmations ++ [c] } ∧
      ∃ n, db'.events = db.events ++ [documentConfirmed d c n] := by
  unfold CaseDatabase.record at h
  split at h
  · cases h
  · next key hkey =>
    split at h
    swap
    · cases h
    split at h
    · cases h
    · next s hs =>
      cases hevent : CaseDatabase.confirmationEvent { db with store := s } d (q.row E d ids type run corrected key) with
      | error e =>
        rw [hevent] at h
        cases h
      | ok found =>
        rw [hevent] at h
        obtain ⟨rfl, rfl⟩ := Prod.mk.inj (Except.ok.inj h)
        obtain rfl := confirmationEvent_ok hevent hfresh
        exact ⟨rfl, rfl, rfl, (confirm_ok hs).store, _, rfl⟩

theorem confirmationReplay_ok {s : CaseStore} {key fingerprint : String}
    (h : s.confirmationReplay key fingerprint = .ok (some c)) :
    c ∈ s.confirmations ∧ c.idempotencyKey = key ∧ c.requestFingerprint = fingerprint := by
  unfold CaseStore.confirmationReplay at h
  split at h
  · cases h
  · next c' hfind =>
    split_ifs at h with hprint
    obtain rfl := Option.some.inj (Except.ok.inj h)
    have hkey := List.find?_some hfind
    exact ⟨List.mem_of_find?_eq_some hfind, of_decide_eq_true hkey, hprint⟩

theorem replayOf_confirmationReplay (h : db.confirmationReplay E d q = .ok (some c)) : ReplayOf E db d q c := by
  unfold CaseDatabase.confirmationReplay at h
  split at h
  · cases h
  · next key hkey =>
    split_ifs at h
    obtain ⟨hmem, hkey', hprint⟩ := confirmationReplay_ok h
    exact ⟨hmem, by rw [hkey, hkey'], hprint⟩

theorem confirmRun_returns {corrected : Option (List String)} {canonical : Except CaseError Tables}
    {run : SupportingRunRow} (hfresh : documentConfirmedKey ids.confirmationId ∉ db.events.map (·.eventKey))
    (hcanonical : ∀ tables, canonical = .ok tables → NewRecord type ids.recordId db.tables tables)
    (h : db.confirmRun E d q ids corrected type canonical run = .ok (db', c)) : CommitsOne db type c db' := by
  unfold CaseDatabase.confirmRun at h
  split at h
  · cases h
  · split at h
    · cases h
    split at h
    · cases h
    · rename_i tables
      obtain ⟨htype, hid, hsame, hstore, n, hevents⟩ := record_ok h hfresh
      refine ⟨⟨htype, ?_⟩, hstore, d, n, hevents⟩
      rw [hid, hsame]
      exact hcanonical tables rfl

/-- A confirmation that returns has committed one of everything or has found the earlier one. -/
theorem confirm_returns {correctedFields : Json → Option (List String)} {canonical : Except CaseError Tables}
    (hfresh : documentConfirmedKey ids.confirmationId ∉ db.events.map (·.eventKey))
    (hcanonical : ∀ tables, canonical = .ok tables → NewRecord type ids.recordId db.tables tables)
    (h : db.confirm E d q ids correctedFields type canonical = .ok (db', c)) :
    CommitsOne db type c db' ∨ db' = db ∧ ReplayOf E db d q c := by
  unfold CaseDatabase.confirm at h
  split at h
  · cases h
  · next c' hreplay =>
    obtain ⟨rfl, rfl⟩ := Prod.mk.inj (Except.ok.inj h)
    exact .inr ⟨rfl, replayOf_confirmationReplay hreplay⟩
  · split at h
    · cases h
    split at h
    · cases h
    · exact .inl (confirmRun_returns hfresh hcanonical h)

end

/-- Nothing is raised but errors callers are told of. -/
def Fine {α : Type} (x : Except CaseError α) : Prop := ∀ e, x = .error e → e.Known

@[simp] theorem fine_ok {α : Type} (a : α) : Fine (.ok a : Except CaseError α) := fun _ h => by cases h

@[simp] theorem fine_error {α : Type} {e : CaseError} : Fine (.error e : Except CaseError α) ↔ e.Known :=
  ⟨fun h => h e rfl, fun h _ he => Except.error.inj he ▸ h⟩

theorem fine_map {α β : Type} {x : Except CaseError α} {f : α → β} : Fine (x.map f) ↔ Fine x := by
  cases x with
  | error e => exact Iff.rfl.trans (fine_error.trans fine_error.symm)
  | ok a => exact iff_of_true (fine_ok _) (fine_ok a)

section

variable {E : ConfirmEnv} {db : CaseDatabase} {d : CaseDocument} {q : ConfirmRequest} {ids : ConfirmIds}
  {type : CanonicalRecordType}

theorem confirm_of_new {s : CaseStore} {c : CaseConfirmation} (hid : c.id ∉ s.confirmations.map (·.id))
    (hd : c.caseDocumentId ∉ s.confirmations.map (·.caseDocumentId))
    (hkey : c.idempotencyKey ∉ s.confirmations.map (·.idempotencyKey)) : ∃ s', s.confirm c = .ok s' := by
  refine ⟨_, if_neg ?_⟩
  rintro ⟨c', hc', hsame | hsame | hsame⟩
  · exact hid (List.mem_map.2 ⟨c', hc', hsame⟩)
  · exact hd (List.mem_map.2 ⟨c', hc', hsame⟩)
  · exact hkey (List.mem_map.2 ⟨c', hc', hsame⟩)

theorem fine_confirmationEvent_iff {c : CaseConfirmation}
    (hfresh : documentConfirmedKey c.id ∉ db.events.map (·.eventKey)) :
    Fine (db.confirmationEvent d c) ↔ IntegerFits db.nextSequence := by
  unfold CaseDatabase.confirmationEvent
  rw [if_neg hfresh]
  split_ifs with hfits
  · exact iff_of_true (fine_ok _) hfits
  · exact iff_of_false (fun h => fine_error.1 h) hfits

/-- The first confirmation of an attachment is recorded exactly when the columns take it. -/
theorem fine_record_iff {run : SupportingRunRow} {corrected : List String} (hkey : NewKey db q)
    (hd : d.id ∉ db.store.confirmations.map (·.caseDocumentId))
    (hid : ids.confirmationId ∉ db.store.confirmations.map (·.id))
    (hevent : documentConfirmedKey ids.confirmationId ∉ db.events.map (·.eventKey)) :
    Fine (db.record E d q ids type run corrected) ↔ Recordable db q := by
  cases hk : q.idempotencyKey with
  | none =>
    have hrecord : db.record E d q ids type run corrected = .error .integrity := by
      simp only [CaseDatabase.record, hk]
    rw [hrecord, fine_error]
    exact iff_of_false id fun h => by simpa [hk] using h.key
  | some key =>
    obtain ⟨s, hs⟩ := confirm_of_new (c := q.row E d ids type run corrected key) hid hd (hkey key hk)
    by_cases hfits : (∀ r ∈ q.correctionReason, noNul r) ∧ IntegerFits (db.store.case.version + 1)
    · have hrecord : db.record E d q ids type run corrected =
          (CaseDatabase.confirmationEvent { db with store := s } d (q.row E d ids type run corrected key)).map
            fun db' => (db', q.row E d ids type run corrected key) := by
        simp only [CaseDatabase.record, hk, if_pos hfits, hs]
      have hiff : Fine (CaseDatabase.confirmationEvent { db with store := s } d
          (q.row E d ids type run corrected key)) ↔ IntegerFits db.nextSequence := fine_confirmationEvent_iff hevent
      rw [hrecord, fine_map, hiff]
      exact ⟨fun h => ⟨by simp [hk], hfits.1, hfits.2, h⟩, fun h => h.event⟩
    · have hrecord : db.record E d q ids type run corrected = .error .dataError := by
        simp only [CaseDatabase.record, hk, if_neg hfits]
      rw [hrecord, fine_error]
      exact iff_of_false id fun h => hfits ⟨h.reason, h.version⟩

theorem confirmationReplay_cases (E : ConfirmEnv) (db : CaseDatabase) (d : CaseDocument) (q : ConfirmRequest) :
    ((∃ k ∈ q.idempotencyKey, ¬ noNul k) ∧ db.confirmationReplay E d q = .error .dataError) ∨
      (∀ k ∈ q.idempotencyKey, noNul k) ∧
        (¬ NewKey db q ∧ (db.confirmationReplay E d q = .error caseKeyReused ∨
          ∃ c, db.confirmationReplay E d q = .ok (some c)) ∨
        NewKey db q ∧ db.confirmationReplay E d q = .ok none) := by
  cases hk : q.idempotencyKey with
  | none =>
    refine .inr ⟨by simp, .inr ⟨by simp [NewKey, hk], ?_⟩⟩
    simp only [CaseDatabase.confirmationReplay, hk]
  | some key =>
    by_cases hnul : noNul key
    · refine .inr ⟨by simpa using hnul, ?_⟩
      have hreplay : db.confirmationReplay E d q = db.store.confirmationReplay key (q.fingerprint E d) := by
        simp only [CaseDatabase.confirmationReplay, hk, if_pos hnul]
      rw [hreplay]
      unfold CaseStore.confirmationReplay
      split
      · next hfind =>
        refine .inr ⟨fun k hk' hmem => ?_, rfl⟩
        obtain rfl : key = k := Option.some.inj (hk.symm.trans hk')
        obtain ⟨c, hc, hkey⟩ := List.mem_map.1 hmem
        exact List.find?_eq_none.1 hfind c hc (decide_eq_true hkey)
      · next c hfind =>
        have hkey := List.find?_some hfind
        have hused : ¬ NewKey db q := fun hnew => hnew key hk
          (List.mem_map.2 ⟨c, List.mem_of_find?_eq_some hfind, of_decide_eq_true hkey⟩)
        split_ifs
        · exact .inl ⟨hused, .inr ⟨c, rfl⟩⟩
        · exact .inl ⟨hused, .inl rfl⟩
    · refine .inl ⟨⟨key, rfl, hnul⟩, ?_⟩
      simp only [CaseDatabase.confirmationReplay, hk, if_neg hnul]

theorem supportRun_error {s : CaseStore} {runId : Uuid} {version : String} {e : CaseError}
    (h : s.supportRun d runId version = .error e) : ∃ message, e = .caseNotReady message := by
  unfold CaseStore.supportRun at h
  split at h
  · exact ⟨_, (Except.error.inj h).symm⟩
  · split at h
    · split_ifs at h
      exact ⟨_, (Except.error.inj h).symm⟩
    · exact ⟨_, (Except.error.inj h).symm⟩

variable {correctedFields : Json → Option (List String)} {canonical : Except CaseError Tables}

theorem confirm_of_proceeds {run : SupportingRunRow} {output : Json} (h : Proceeds db d q run output)
    (hkey : ∀ k ∈ q.idempotencyKey, noNul k) : db.confirm E d q ids correctedFields type canonical =
      db.confirmRun E d q ids (correctedFields output) type canonical run := by
  have hreplay : db.confirmationReplay E d q = .ok none := by
    rcases confirmationReplay_cases E db d q with ⟨⟨k, hk, hnul⟩, -⟩ | ⟨-, ⟨hused, -⟩ | ⟨-, hnew⟩⟩
    · exact absurd (hkey k hk) hnul
    · exact absurd h.key hused
    · exact hnew
  unfold CaseDatabase.confirm
  rw [hreplay, h.run]
  simp only [h.version, ne_eq, not_true_eq_false, if_false]

/-- A confirmation of a run for the first time is fine exactly when the run can be read and, unless a reason is missing,
the canonical record and the confirmation are. -/
theorem fine_confirmRun_iff {corrected : Option (List String)} {run : SupportingRunRow} (hkey : NewKey db q)
    (hd : d.id ∉ db.store.confirmations.map (·.caseDocumentId))
    (hid : ids.confirmationId ∉ db.store.confirmations.map (·.id))
    (hevent : documentConfirmedKey ids.confirmationId ∉ db.events.map (·.eventKey)) :
    Fine (db.confirmRun E d q ids corrected type canonical run) ↔ ∃ names, corrected = some names ∧
      (Reasoned q names → Fine canonical ∧ ((∃ tables, canonical = .ok tables) → Recordable db q)) := by
  cases corrected with
  | none =>
    refine iff_of_false (fun h => fine_error.1 h) ?_
    rintro ⟨names, h, -⟩
    cases h
  | some names =>
    have hnames : (∃ names', some names = some names' ∧
        (Reasoned q names' → Fine canonical ∧ ((∃ tables, canonical = .ok tables) → Recordable db q))) ↔
        (Reasoned q names → Fine canonical ∧ ((∃ tables, canonical = .ok tables) → Recordable db q)) := by simp
    have hreason : names ≠ [] ∧ q.reasoned = false ↔ ¬ Reasoned q names := by simp [Reasoned]
    rw [hnames]
    unfold CaseDatabase.confirmRun
    dsimp only
    split_ifs with hmissing
    · exact iff_of_true (fine_error.2 trivial) fun h => absurd h (hreason.1 hmissing)
    · rw [hreason, not_not] at hmissing
      rw [forall_prop_of_true hmissing]
      cases canonical with
      | error e => simp
      | ok tables =>
        have hrecordable : Recordable { db with tables := tables } q ↔ Recordable db q :=
          ⟨fun h => ⟨h.key, h.reason, h.version, h.event⟩, fun h => ⟨h.key, h.reason, h.version, h.event⟩⟩
        have hfine : Fine (CaseDatabase.record E { db with tables := tables } d q ids type run names) ↔
            Recordable { db with tables := tables } q := fine_record_iff hkey hd hid hevent
        simp [hfine, hrecordable]

/-- A confirmation that does not proceed is refused with an error callers are told of, or is a replay. -/
theorem fine_confirm_of_not_proceeds (hkey : ∀ k ∈ q.idempotencyKey, noNul k)
    (h : ∀ run output, ¬ Proceeds db d q run output) :
    Fine (db.confirm E d q ids correctedFields type canonical) := by
  unfold CaseDatabase.confirm
  rcases confirmationReplay_cases E db d q with ⟨⟨k, hk, hnul⟩, -⟩ | ⟨-, ⟨-, hreused | ⟨c, hreplay⟩⟩ | ⟨hnew, hnone⟩⟩
  · exact absurd (hkey k hk) hnul
  · rw [hreused]
    exact fine_error.2 trivial
  · rw [hreplay]
    exact fine_ok _
  · rw [hnone]
    dsimp only
    split_ifs with hversion
    · exact fine_error.2 trivial
    · cases hrun : db.store.supportRun d q.extractionRunId q.extractorVersion with
      | error e =>
        obtain ⟨message, rfl⟩ := supportRun_error hrun
        exact fine_error.2 trivial
      | ok found => exact absurd ⟨hnew, not_ne_iff.1 hversion, hrun⟩ (h found.1 found.2)

theorem fine_confirm_iff (hfirst : ¬ Reconfirms db d q)
    (hid : ids.confirmationId ∉ db.store.confirmations.map (·.id))
    (hevent : documentConfirmedKey ids.confirmationId ∉ db.events.map (·.eventKey)) :
    Fine (db.confirm E d q ids correctedFields type canonical) ↔ (∀ k ∈ q.idempotencyKey, noNul k) ∧
      ∀ run output, Proceeds db d q run output → ∃ corrected, correctedFields output = some corrected ∧
        (Reasoned q corrected → Fine canonical ∧ ((∃ tables, canonical = .ok tables) → Recordable db q)) := by
  by_cases hkey : ∀ k ∈ q.idempotencyKey, noNul k
  swap
  · have hreplay : db.confirmationReplay E d q = .error .dataError := by
      rcases confirmationReplay_cases E db d q with ⟨-, hreplay⟩ | ⟨hnul, -⟩
      · exact hreplay
      · exact absurd hnul hkey
    refine iff_of_false (fun h => ?_) fun h => hkey h.1
    unfold CaseDatabase.confirm at h
    rw [hreplay] at h
    exact fine_error.1 h
  by_cases hproceeds : ∃ run output, Proceeds db d q run output
  swap
  · push Not at hproceeds
    exact iff_of_true (fine_confirm_of_not_proceeds hkey hproceeds)
      ⟨hkey, fun run output h => absurd h (hproceeds run output)⟩
  obtain ⟨run, output, hp⟩ := hproceeds
  have hunique : ∀ run' output', Proceeds db d q run' output' → output' = output := fun run' output' h =>
    (Prod.mk.inj (Except.ok.inj (h.run.symm.trans hp.run))).2
  have hd : d.id ∉ db.store.confirmations.map (·.caseDocumentId) := fun hmem => hfirst ⟨hmem, hp.key, hp.version⟩
  rw [confirm_of_proceeds hp hkey, and_iff_right hkey, fine_confirmRun_iff hp.key hd hid hevent]
  refine ⟨fun h run' output' hp' => ?_, fun h => h run output hp⟩
  obtain rfl := hunique run' output' hp'
  exact h

end

section

variable {E : ConfirmEnv} {db : CaseDatabase} {ids : ConfirmIds} {v : PurchaseOrderConfirmationValues}

theorem forall_canonicalLines {P : String → String → Decimal → Decimal → Option Decimal → Prop} :
    (∀ l ∈ canonicalLines ids v.values,
        P l.lineNumber l.description l.orderedQuantity l.unitPrice l.lineTotal) ↔
      ∀ l ∈ v.lines, P l.lineNumber l.description l.orderedQuantity l.unitPrice l.lineTotal := by
  have hvalues : (∀ x ∈ v.values.lines, P x.lineNumber x.description x.orderedQuantity x.unitPrice x.lineTotal) ↔
      ∀ l ∈ v.lines, P l.lineNumber l.description l.orderedQuantity l.unitPrice l.lineTotal := by
    simp [PurchaseOrderConfirmationValues.values]
  rw [← hvalues]
  constructor
  · intro h x hx
    obtain ⟨n, hn⟩ := List.mem_iff_getElem?.1 hx
    have hmem : canonicalLine ids (x, n) ∈ canonicalLines ids v.values :=
      (List.mem_insertionSort _).2 (List.mem_map_of_mem (List.mk_mem_zipIdx_iff_getElem?.2 hn))
    exact h _ hmem
  · intro h l hl
    obtain ⟨x, hx, rfl⟩ := List.mem_map.1 ((List.mem_insertionSort _).1 hl)
    exact h x.1 (List.fst_mem_of_mem_zipIdx hx)

theorem canonicalOrder_of_fresh (h : Set.InjOn ids.lineIds (Set.Iio v.lines.length)) :
    ∃ po, canonicalOrder ids v.values = some po ∧ po.id = ids.recordId ∧ po.externalPoNumber = v.externalPoNumber ∧
      po.vendorName = v.vendorName ∧ po.lines = canonicalLines ids v.values := by
  have hids : ((canonicalLines ids v.values).map (·.id)).Nodup := by
    have hperm : ((canonicalLines ids v.values).map (·.id)).Perm
        ((v.values.lines.zipIdx.map (canonicalLine ids)).map (·.id)) := (List.perm_insertionSort _ _).map _
    rw [hperm.nodup_iff, List.map_map]
    have hsnd : v.values.lines.zipIdx.map ((·.id) ∘ canonicalLine ids) =
        (List.range v.lines.length).map ids.lineIds := by
      have hlength : v.values.lines.length = v.lines.length := List.length_map _
      rw [← hlength, List.range_eq_range', ← List.zipIdx_map_snd, List.map_map]
      rfl
    rw [hsnd]
    exact List.nodup_range.map_on fun m hm n hn heq => h (List.mem_range.1 hm) (List.mem_range.1 hn) heq
  exact ⟨_, dif_pos hids, rfl, rfl, rfl, rfl⟩

theorem storedLine_iff {l : PurchaseOrderLine} : (∃ l', l.stored = some l') ↔
    (TextFits 50 l.lineNumber ∧ TextFits 500 l.description) ∧ (roundedColumn l.orderedQuantity).isSome ∧
      (roundedColumn l.unitPrice).isSome ∧ ∀ t ∈ l.lineTotal, (roundedColumn t).isSome := by
  unfold PurchaseOrderLine.stored
  split_ifs with htexts
  · rw [and_iff_right htexts]
    cases roundedColumn l.orderedQuantity with
    | none => simp
    | some q =>
      cases roundedColumn l.unitPrice with
      | none => simp
      | some p =>
        cases l.lineTotal with
        | none => simp
        | some t => cases ht : roundedColumn t <;> simp [ht]
  · simp [htexts]

theorem storedLine_id {l l' : PurchaseOrderLine} (h : l.stored = some l') : l'.id = l.id := by
  unfold PurchaseOrderLine.stored at h
  split_ifs at h
  split at h
  · rw [← Option.some.inj h]
  · rw [← Option.some.inj h]
  · cases h

theorem storedOrder_iff {po : PurchaseOrder} : (∃ po', po.stored = .ok po') ↔
    (TextFits 100 po.externalPoNumber ∧ ∀ n ∈ po.vendorName, TextFits 255 n) ∧
      ∀ l ∈ po.lines, ∃ l', l.stored = some l' := by
  unfold PurchaseOrder.stored
  split_ifs with htexts
  · rw [and_iff_right htexts, ← Lists.exists_mapM_iff]
    cases hlines : po.lines.mapM PurchaseOrderLine.stored with
    | none => simp
    | some lines =>
      have hsame : lines.map (·.id) = po.lines.map (·.id) :=
        (Lists.map_eq_map_of_forall₂ ((Lists.mapM_eq_some_iff.1 hlines).imp fun _ _ h => (storedLine_id h).symm)).symm
      have hids : (lines.map (·.id)).Nodup := hsame ▸ po.line_ids
      simp [hids]
  · refine iff_of_false ?_ fun h => htexts h.1
    rintro ⟨po', h⟩
    cases h

theorem storedOrder_error {po : PurchaseOrder} {e : CaseError} (h : po.stored = .error e) : ¬ e.Known := by
  unfold PurchaseOrder.stored at h
  split at h
  · split at h
    · cases h
      exact id
    · split_ifs at h
      cases h
      exact id
  · cases h
    exact id

/-- With new ids, the purchase order is inserted exactly when its columns take the confirmed values. -/
theorem insertOrder_iff (h : Set.InjOn ids.lineIds (Set.Iio v.lines.length)) :
    (∃ tables, db.insertOrder ids v = .ok tables) ↔ OrderFits v := by
  obtain ⟨po, hpo, -, hnumber, hvendor, hlines⟩ := canonicalOrder_of_fresh h
  have hinsert : (∃ tables, db.insertOrder ids v = .ok tables) ↔ ∃ po', po.stored = .ok po' := by
    unfold CaseDatabase.insertOrder
    rw [hpo]
    dsimp only
    cases po.stored with
    | error e =>
      refine iff_of_false ?_ ?_
      · rintro ⟨tables, h⟩
        cases h
      · rintro ⟨po', h⟩
        cases h
    | ok po' => exact iff_of_true ⟨_, rfl⟩ ⟨po', rfl⟩
  have hall : (∀ l ∈ po.lines, ∃ l', l.stored = some l') ↔ ∀ l ∈ v.lines,
      (TextFits 50 l.lineNumber ∧ TextFits 500 l.description) ∧ (roundedColumn l.orderedQuantity).isSome ∧
        (roundedColumn l.unitPrice).isSome ∧ ∀ t ∈ l.lineTotal, (roundedColumn t).isSome := by
    rw [hlines]
    simp only [storedLine_iff]
    exact forall_canonicalLines (P := fun a b c d t => (TextFits 50 a ∧ TextFits 500 b) ∧ (roundedColumn c).isSome ∧
      (roundedColumn d).isSome ∧ ∀ x ∈ t, (roundedColumn x).isSome)
  rw [hinsert, storedOrder_iff, hall, hnumber, hvendor]
  constructor
  · rintro ⟨⟨hn, hv⟩, hl⟩
    exact ⟨hn, hv, fun l hl' => (hl l hl').1, fun l hl' => (hl l hl').2⟩
  · rintro ⟨hn, hv, ht, ha⟩
    exact ⟨⟨hn, hv⟩, fun l hl' => ⟨ht l hl', ha l hl'⟩⟩

theorem insertOrder_error (h : Set.InjOn ids.lineIds (Set.Iio v.lines.length)) {e : CaseError}
    (he : db.insertOrder ids v = .error e) : ¬ e.Known := by
  obtain ⟨po, hpo, -⟩ := canonicalOrder_of_fresh h
  unfold CaseDatabase.insertOrder at he
  rw [hpo] at he
  dsimp only at he
  cases hstored : po.stored with
  | error e' =>
    rw [hstored] at he
    obtain rfl : e' = e := Except.error.inj he
    exact storedOrder_error hstored
  | ok po' =>
    rw [hstored] at he
    cases he

theorem storedOrder_id {po po' : PurchaseOrder} (h : po.stored = .ok po') : po'.id = po.id := by
  unfold PurchaseOrder.stored at h
  split at h
  · split at h
    · cases h
    · split_ifs at h
      rw [← Except.ok.inj h]
  · cases h

theorem newRecord_insertOrder {tables : Tables} (h : db.insertOrder ids v = .ok tables) :
    NewRecord .purchaseOrder ids.recordId db.tables tables := by
  unfold CaseDatabase.insertOrder at h
  split at h
  · cases h
  · next po hpo =>
    cases hstored : po.stored with
    | error e =>
      rw [hstored] at h
      cases h
    | ok po' =>
      rw [hstored] at h
      exact ⟨po', (storedOrder_id hstored).trans (canonicalOrder_id hpo), (Except.ok.inj h).symm⟩

theorem fine_insertOrder_iff (h : Set.InjOn ids.lineIds (Set.Iio v.lines.length)) :
    Fine (db.insertOrder ids v) ↔ OrderFits v := by
  have hiff : (∃ tables, db.insertOrder ids v = .ok tables) ↔ OrderFits v := insertOrder_iff h
  rw [← hiff]
  constructor
  · intro hfine
    cases hinsert : db.insertOrder ids v with
    | error e => exact absurd (hfine e hinsert) (insertOrder_error h hinsert)
    | ok tables => exact ⟨tables, rfl⟩
  · rintro ⟨tables, hinsert⟩
    rw [hinsert]
    exact fine_ok _

end

section

variable {E : ConfirmEnv} {db : CaseDatabase} {ids : ConfirmIds} {v : ReceiptConfirmationValues} {po : PurchaseOrder}
  {lines : List GoodsReceiptLine}

theorem canonicalReceiptLine_eq {x : ReceiptLineValues} {l : GoodsReceiptLine} (h : canonicalReceiptLine po x = some l) :
    ∃ line, po.lines.reverse.find? (·.lineNumber = x.purchaseOrderLineNumber) = some line ∧ line ∈ po.lines ∧
      line.lineNumber = x.purchaseOrderLineNumber ∧ l.purchaseOrderLineId = line.id ∧
      l.acceptedQuantity = x.acceptedQuantity := by
  obtain ⟨line, hfind, rfl⟩ := Option.map_eq_some_iff.1 h
  have hnumber := List.find?_some hfind
  exact ⟨line, hfind, List.mem_reverse.1 (List.mem_of_find?_eq_some hfind), of_decide_eq_true hnumber, rfl, rfl⟩

theorem exists_canonicalReceiptLine_iff {x : ReceiptLineValues} :
    (∃ l, canonicalReceiptLine po x = some l) ↔ x.purchaseOrderLineNumber ∈ po.lines.map (·.lineNumber) := by
  constructor
  · rintro ⟨l, h⟩
    obtain ⟨line, -, hmem, hnumber, -⟩ := canonicalReceiptLine_eq h
    exact List.mem_map.2 ⟨line, hmem, hnumber⟩
  · intro h
    obtain ⟨line, hmem, hnumber⟩ := List.mem_map.1 h
    cases hfind : po.lines.reverse.find? (·.lineNumber = x.purchaseOrderLineNumber) with
    | none => exact absurd (decide_eq_true hnumber) (List.find?_eq_none.1 hfind line (List.mem_reverse.2 hmem))
    | some found => exact ⟨_, by rw [canonicalReceiptLine, hfind]; rfl⟩

theorem exists_receiptLines_iff : (∃ lines, v.values.lines.mapM (canonicalReceiptLine po) = some lines) ↔
    ∀ l ∈ v.lines, l.purchaseOrderLineNumber ∈ po.lines.map (·.lineNumber) := by
  rw [Lists.exists_mapM_iff]
  simp only [exists_canonicalReceiptLine_iff, ReceiptConfirmationValues.values, List.forall_mem_map]

theorem nodup_receiptLines (h : v.values.lines.mapM (canonicalReceiptLine po) = some lines) :
    (lines.map (·.purchaseOrderLineId)).Nodup := by
  have hforall := Lists.mapM_eq_some_iff.1 h
  have hnumbers : (v.values.lines.map (·.purchaseOrderLineNumber)).Nodup := by
    have hstrip : ((v.lines.map (·.purchaseOrderLineNumber)).map Text.strip).Nodup := by
      rw [List.map_map]
      exact v.line_numbers
    have hvalues : v.values.lines.map (·.purchaseOrderLineNumber) = v.lines.map (·.purchaseOrderLineNumber) := by
      simp [ReceiptConfirmationValues.values]
    rw [hvalues]
    exact hstrip.of_map
  have hlookup : v.values.lines.map (fun x =>
      (po.lines.reverse.find? (·.lineNumber = x.purchaseOrderLineNumber)).map (·.id)) =
      (lines.map (·.purchaseOrderLineId)).map some := by
    rw [List.map_map]
    refine Lists.map_eq_map_of_forall₂ (hforall.imp fun x l hl => ?_)
    obtain ⟨line, hfind, -, -, hid, -⟩ := canonicalReceiptLine_eq hl
    simp [hfind, hid]
  refine List.Nodup.of_map some ?_
  rw [← hlookup]
  refine (List.Nodup.of_map _ hnumbers).map_on fun x hx y hy heq => ?_
  obtain ⟨l, -, hl⟩ := Lists.exists_of_forall₂_mem hforall.flip hx
  obtain ⟨l', -, hl'⟩ := Lists.exists_of_forall₂_mem hforall.flip hy
  obtain ⟨line, hfind, hmem, hnumber, -⟩ := canonicalReceiptLine_eq hl
  obtain ⟨line', hfind', hmem', hnumber', -⟩ := canonicalReceiptLine_eq hl'
  rw [hfind, hfind', Option.map_some, Option.map_some] at heq
  obtain rfl := List.inj_on_of_nodup_map po.line_ids hmem hmem' (Option.some.inj heq)
  exact List.inj_on_of_nodup_map hnumbers hx hy (hnumber.symm.trans hnumber')

theorem storedReceiptLine_iff {l : GoodsReceiptLine} : (∃ l', l.stored = some l') ↔ StoredPositive l.acceptedQuantity := by
  unfold GoodsReceiptLine.stored StoredPositive
  cases roundedColumn l.acceptedQuantity with
  | none => simp
  | some q => by_cases hpos : 0 < q.toRat <;> simp [hpos]

theorem storedReceiptLine_id {l l' : GoodsReceiptLine} (h : l.stored = some l') :
    l'.purchaseOrderLineId = l.purchaseOrderLineId := by
  obtain ⟨q, -, h⟩ := Option.bind_eq_some_iff.1 h
  split_ifs at h
  rw [← Option.some.inj h]

/-- A receipt is stored with its quantities rounded, or an error is raised that nobody is told of. -/
theorem storedReceipt_cases (r : GoodsReceipt) :
    ((TextFits 100 r.externalReceiptNumber ∧ ∀ l ∈ r.lines, StoredPositive l.acceptedQuantity) ∧ ∃ r' : GoodsReceipt,
        r.stored = .ok r' ∧ r'.id = r.id ∧ r'.purchaseOrderId = r.purchaseOrderId ∧ r'.reversal = r.reversal ∧
        r'.externalReceiptNumber = r.externalReceiptNumber ∧
        r'.lines.map (·.purchaseOrderLineId) = r.lines.map (·.purchaseOrderLineId)) ∨
      ¬ (TextFits 100 r.externalReceiptNumber ∧ ∀ l ∈ r.lines, StoredPositive l.acceptedQuantity) ∧
        ∃ e, r.stored = .error e ∧ ¬ e.Known := by
  unfold GoodsReceipt.stored
  split_ifs with hfits
  · cases hlines : r.lines.mapM GoodsReceiptLine.stored with
    | none =>
      refine .inr ⟨fun h => ?_, _, rfl, id⟩
      have hall : ∀ l ∈ r.lines, ∃ l', l.stored = some l' := fun l hl => storedReceiptLine_iff.2 (h.2 l hl)
      obtain ⟨lines', hlines'⟩ := Lists.exists_mapM_iff.2 hall
      rw [hlines] at hlines'
      cases hlines'
    | some lines' =>
      have hsame : lines'.map (·.purchaseOrderLineId) = r.lines.map (·.purchaseOrderLineId) :=
        (Lists.map_eq_map_of_forall₂
          ((Lists.mapM_eq_some_iff.1 hlines).imp fun _ _ h => (storedReceiptLine_id h).symm)).symm
      have hids : (lines'.map (·.purchaseOrderLineId)).Nodup := hsame ▸ r.line_ids
      have hall := Lists.exists_mapM_iff.1 ⟨lines', hlines⟩
      exact .inl ⟨⟨hfits.1, fun l hl => storedReceiptLine_iff.1 (hall l hl)⟩, _, dif_pos hids, rfl, rfl, rfl, rfl, hsame⟩
  · refine .inr ⟨fun h => hfits ⟨h.1, fun l hl => ?_⟩, _, rfl, id⟩
    obtain ⟨q, hq, -⟩ := h.2 l hl
    rw [hq]
    rfl

theorem length_strip_le (s : String) : (Text.strip s).length ≤ s.length := by
  have hlength : (Text.stripBy Text.isSpace s.toList).length ≤ s.toList.length := by
    rw [Text.stripBy, List.length_reverse]
    refine (List.length_dropWhile_le _ _).trans ?_
    rw [List.length_reverse]
    exact List.length_dropWhile_le _ _
  rw [Text.strip, String.length_ofList]
  exact hlength

theorem forall_receiptLines (h : v.values.lines.mapM (canonicalReceiptLine po) = some lines) {P : Decimal → Prop} :
    (∀ l ∈ lines, P l.acceptedQuantity) ↔ ∀ l ∈ v.lines, P l.acceptedQuantity := by
  have hquantities : v.values.lines.map (·.acceptedQuantity) = lines.map (·.acceptedQuantity) :=
    Lists.map_eq_map_of_forall₂ ((Lists.mapM_eq_some_iff.1 h).imp fun x l hl => by
      obtain ⟨line, -, -, -, -, hq⟩ := canonicalReceiptLine_eq hl
      exact hq.symm)
  have hvalues : v.values.lines.map (·.acceptedQuantity) = v.lines.map (·.acceptedQuantity) := by
    simp [ReceiptConfirmationValues.values]
  have hall : (∀ q ∈ lines.map (·.acceptedQuantity), P q) ↔ ∀ q ∈ v.lines.map (·.acceptedQuantity), P q := by
    rw [← hquantities, hvalues]
  simpa only [List.forall_mem_map] using hall

/-- The database takes the receipt of a purchase order on lines of it, when its number is new. -/
theorem acceptsReceipt_iff {r : GoodsReceipt} (hpo : db.tables.purchaseOrder po.id = some po)
    (hlines : v.values.lines.mapM (canonicalReceiptLine po) = some lines)
    (hid : r.id ∉ db.tables.receipts.map (·.id)) (horder : r.purchaseOrderId = po.id) (hreversal : r.reversal = none)
    (hsame : r.lines.map (·.purchaseOrderLineId) = lines.map (·.purchaseOrderLineId)) :
    db.tables.AcceptsReceipt r ↔
      r.externalReceiptNumber ∉ (db.tables.receiptsOf po.id).map (·.externalReceiptNumber) := by
  have hforall := Lists.mapM_eq_some_iff.1 hlines
  have hown : ∀ l ∈ r.lines, l.purchaseOrderLineId ∈ po.lines.map (·.id) := by
    intro l hl
    have hmem : l.purchaseOrderLineId ∈ lines.map (·.purchaseOrderLineId) := hsame ▸ List.mem_map_of_mem hl
    obtain ⟨l', hl', hlid⟩ := List.mem_map.1 hmem
    obtain ⟨x, -, hx⟩ := Lists.exists_of_forall₂_mem hforall hl'
    obtain ⟨line, -, hline, -, hlineId, -⟩ := canonicalReceiptLine_eq hx
    exact List.mem_map.2 ⟨line, hline, by rw [← hlid, hlineId]⟩
  have hne : r.lines ≠ [] := by
    intro hnil
    rw [hnil] at hsame
    have hlength := hforall.length_eq
    have hempty : lines = [] := List.map_eq_nil_iff.1 hsame.symm
    rw [hempty, ReceiptConfirmationValues.values, List.length_map] at hlength
    exact v.lines_ne (List.length_eq_zero_iff.1 hlength)
  unfold Tables.AcceptsReceipt
  rw [horder, hpo]
  constructor
  · exact fun h => h.2.2.2.1
  · intro hnumber
    refine ⟨?_, hreversal, hid, hnumber, hne⟩
    simpa using hown

theorem insertReceiptOn_cases (hpo : db.tables.purchaseOrder po.id = some po)
    (hid : ids.recordId ∉ db.tables.receipts.map (·.id)) :
    (¬ (∀ l ∈ v.lines, l.purchaseOrderLineNumber ∈ po.lines.map (·.lineNumber)) ∧
      db.insertReceiptOn E ids po v =
        .error (.caseConflict "PO_LINE_NOT_FOUND" "Receipt references an unknown PO line")) ∨
    (∀ l ∈ v.lines, l.purchaseOrderLineNumber ∈ po.lines.map (·.lineNumber)) ∧
      (ReceiptFits db po v ∧ (∃ tables, db.insertReceiptOn E ids po v = .ok tables ∧
          NewRecord .goodsReceipt ids.recordId db.tables tables) ∨
        ¬ ReceiptFits db po v ∧ ∃ e, db.insertReceiptOn E ids po v = .error e ∧ ¬ e.Known) := by
  by_cases hfound : ∃ lines, v.values.lines.mapM (canonicalReceiptLine po) = some lines
  swap
  · refine .inl ⟨fun h => hfound (exists_receiptLines_iff.2 h), ?_⟩
    have hnone : v.values.lines.mapM (canonicalReceiptLine po) = none := by
      cases hlines : v.values.lines.mapM (canonicalReceiptLine po) with
      | none => rfl
      | some lines => exact absurd ⟨lines, hlines⟩ hfound
    simp only [CaseDatabase.insertReceiptOn, hnone]
  refine .inr ⟨exists_receiptLines_iff.1 hfound, ?_⟩
  obtain ⟨lines, hlines⟩ := hfound
  have hids := nodup_receiptLines hlines
  by_cases hcreatable : v.values.Creatable
  swap
  · refine .inr ⟨fun h => hcreatable ⟨h.number.1, h.offset⟩, .validation, ?_, id⟩
    simp only [CaseDatabase.insertReceiptOn, hlines, if_neg hcreatable]
  cases htime : v.receivedAt.toUtc with
  | none =>
    refine .inr ⟨fun h => ?_, .overflow, ?_, id⟩
    · have hutc := SentDateTime.toUtc_isSome.2 h.utc
      rw [htime] at hutc
      cases hutc
    · simp only [CaseDatabase.insertReceiptOn, hlines, if_pos hcreatable, htime]
  | some t =>
  have hutc := SentDateTime.toUtc_isSome.1 (by rw [htime]; rfl)
  obtain ⟨receipt, hreceipt, hrid, horder, hreversal, hnumber, hrlines⟩ : ∃ receipt,
      canonicalReceipt E.case ids po v.values t lines = some receipt ∧ receipt.id = ids.recordId ∧
        receipt.purchaseOrderId = po.id ∧ receipt.reversal = none ∧
        receipt.externalReceiptNumber = Text.strip v.externalReceiptNumber ∧ receipt.lines = lines :=
    ⟨_, dif_pos hids, rfl, rfl, rfl, rfl, rfl⟩
  have hpositive := forall_receiptLines (P := StoredPositive) hlines
  rw [← hrlines] at hpositive
  rcases storedReceipt_cases receipt with ⟨⟨hfits, hquantities⟩, r, hstored, hid', horder', hreversal', hnumber', hsame⟩ |
    ⟨hnot, e, hstored, he⟩
  · have haccepts : db.tables.AcceptsReceipt r ↔
        r.externalReceiptNumber ∉ (db.tables.receiptsOf po.id).map (·.externalReceiptNumber) :=
      acceptsReceipt_iff hpo hlines (by rwa [hid', hrid]) (horder'.trans horder) (hreversal'.trans hreversal)
        (by rw [hsame, hrlines])
    rw [hnumber', hnumber] at haccepts
    by_cases hunused : Text.strip v.externalReceiptNumber ∉ (db.tables.receiptsOf po.id).map (·.externalReceiptNumber)
    · refine .inl ⟨⟨⟨hcreatable.1, ?_⟩, hunused, hcreatable.2, hutc, hpositive.1 hquantities⟩, _, ?_, r, hid'.trans hrid, rfl⟩
      · rw [hnumber] at hfits
        exact hfits.2
      · simp only [CaseDatabase.insertReceiptOn, hlines, if_pos hcreatable, htime, hreceipt, hstored,
          if_pos (haccepts.2 hunused)]
    · refine .inr ⟨fun h => hunused h.unused, .integrity, ?_, id⟩
      simp only [CaseDatabase.insertReceiptOn, hlines, if_pos hcreatable, htime, hreceipt, hstored,
        if_neg fun h => hunused (haccepts.1 h)]
  · refine .inr ⟨fun h => hnot ⟨?_, hpositive.2 h.quantities⟩, e, ?_, he⟩
    · rw [hnumber]
      exact ⟨(length_strip_le _).trans v.texts.1.2, h.number.2⟩
    · simp only [CaseDatabase.insertReceiptOn, hlines, if_pos hcreatable, htime, hreceipt, hstored]

theorem insertReceipt_of_order {a : CaseDocument} {p : CaseConfirmation} (ha : db.store.active .purchaseOrder = some a)
    (hp : db.store.confirmation a.id = some p) (hpo : db.tables.purchaseOrder p.canonicalRecordId = some po) :
    db.insertReceipt E ids v = if v.referencedPoNumber ≠ po.externalPoNumber then
        .error (.caseConflict "PO_REFERENCE_MISMATCH" "Receipt references another PO")
      else db.insertReceiptOn E ids po v := by
  simp only [CaseDatabase.insertReceipt, CaseStore.activeAttachment, ha, hp, hpo]

/-- What becomes of a receipt: it is refused with an error callers are told of, it is inserted, or it raises another
error. -/
theorem insertReceipt_cases (hid : ids.recordId ∉ db.tables.receipts.map (·.id)) :
    (∀ a p, db.store.active .purchaseOrder = some a → db.store.confirmation a.id = some p →
        ∃ po, db.tables.purchaseOrder p.canonicalRecordId = some po ∧ ¬ RefersTo po v) ∧
      (∃ e, db.insertReceipt E ids v = .error e ∧ e.Known ∧ e ≠ alreadyConfirmed) ∨
    ∃ a p, db.store.active .purchaseOrder = some a ∧ db.store.confirmation a.id = some p ∧
      ((∃ po, db.tables.purchaseOrder p.canonicalRecordId = some po ∧ RefersTo po v ∧ ReceiptFits db po v) ∧
          (∃ tables, db.insertReceipt E ids v = .ok tables ∧
            NewRecord .goodsReceipt ids.recordId db.tables tables) ∨
        ¬ (∃ po, db.tables.purchaseOrder p.canonicalRecordId = some po ∧ (RefersTo po v → ReceiptFits db po v)) ∧
          ∃ e, db.insertReceipt E ids v = .error e ∧ ¬ e.Known) := by
  cases ha : db.store.active .purchaseOrder with
  | none =>
    refine .inl ⟨fun a p h => ?_, .caseNotReady ("Active " ++ DocumentRole.purchaseOrder.value ++ " document is required"),
      ?_, trivial, fun h => ?_⟩
    · cases h
    · simp only [CaseDatabase.insertReceipt, CaseStore.activeAttachment, ha]
    · cases h
  | some a =>
    cases hp : db.store.confirmation a.id with
    | none =>
      refine .inl ⟨fun a' p h h' => ?_, .caseNotReady "Purchase order must be confirmed first", ?_, trivial, fun h => ?_⟩
      · obtain rfl := Option.some.inj h
        rw [hp] at h'
        cases h'
      · simp only [CaseDatabase.insertReceipt, CaseStore.activeAttachment, ha, hp]
      · cases h
    | some p =>
      cases hpo : db.tables.purchaseOrder p.canonicalRecordId with
      | none =>
        refine .inr ⟨a, p, rfl, hp, .inr ⟨?_, .corrupt "confirmed purchase order is missing", ?_, id⟩⟩
        · rintro ⟨po, h, -⟩
          rw [hpo] at h
          cases h
        · simp only [CaseDatabase.insertReceipt, CaseStore.activeAttachment, ha, hp, hpo]
      | some po =>
        have hsame : ∀ a' p', some a = some a' → db.store.confirmation a'.id = some p' →
            db.tables.purchaseOrder p'.canonicalRecordId = some po := by
          intro a' p' h h'
          obtain rfl := Option.some.inj h
          obtain rfl := Option.some.inj (hp.symm.trans h')
          exact hpo
        have hself : db.tables.purchaseOrder po.id = some po := by
          obtain ⟨-, hpoId⟩ := Tables.mem_purchaseOrders hpo
          rw [hpoId, hpo]
        have hinsert : db.insertReceipt E ids v = _ := insertReceipt_of_order ha hp hpo
        by_cases hreference : v.referencedPoNumber = po.externalPoNumber
        swap
        · refine .inl ⟨fun a' p' h h' => ⟨po, hsame a' p' h h', fun hrefers => hreference hrefers.1⟩,
            .caseConflict "PO_REFERENCE_MISMATCH" "Receipt references another PO", ?_, trivial, fun h => ?_⟩
          · rw [hinsert, if_pos hreference]
          · simp [alreadyConfirmed] at h
        rw [if_neg (not_not.2 hreference)] at hinsert
        rw [hinsert]
        rcases insertReceiptOn_cases (E := E) (v := v) hself hid with
          ⟨hfound, herror⟩ | ⟨hfound, ⟨hfits, hok⟩ | ⟨hnot, herror⟩⟩
        · refine .inl ⟨fun a' p' h h' => ⟨po, hsame a' p' h h', fun hrefers => hfound hrefers.2⟩, _, herror, trivial,
            fun h => ?_⟩
          simp [alreadyConfirmed] at h
        · exact .inr ⟨a, p, rfl, hp, .inl ⟨⟨po, hpo, ⟨hreference, hfound⟩, hfits⟩, hok⟩⟩
        · refine .inr ⟨a, p, rfl, hp, .inr ⟨?_, herror⟩⟩
          rintro ⟨po', hpo', hrefers⟩
          obtain rfl := Option.some.inj (hpo.symm.trans hpo')
          exact hnot (hrefers ⟨hreference, hfound⟩)

theorem fine_insertReceipt_iff (hid : ids.recordId ∉ db.tables.receipts.map (·.id)) {R : Prop} :
    Fine (db.insertReceipt E ids v) ∧ ((∃ tables, db.insertReceipt E ids v = .ok tables) → R) ↔
      ∀ a p, db.store.active .purchaseOrder = some a → db.store.confirmation a.id = some p →
        ∃ po, db.tables.purchaseOrder p.canonicalRecordId = some po ∧ (RefersTo po v → ReceiptFits db po v ∧ R) := by
  rcases insertReceipt_cases (E := E) (v := v) hid with ⟨hrefused, e, herror, hknown, -⟩ |
    ⟨a, p, ha, hp, ⟨⟨po, hpo, hrefers, hfits⟩, tables, hok, -⟩ | ⟨hnot, e, herror, hunknown⟩⟩
  · rw [herror]
    have hnone : (∃ tables, (Except.error e : Except CaseError Tables) = .ok tables) → R := by
      rintro ⟨tables, h⟩
      cases h
    refine iff_of_true ⟨fine_error.2 hknown, hnone⟩ fun a p ha hp => ?_
    obtain ⟨po, hpo, hnot⟩ := hrefused a p ha hp
    exact ⟨po, hpo, fun h => absurd h hnot⟩
  · rw [hok]
    constructor
    · rintro ⟨-, hR⟩ a' p' ha' hp'
      obtain rfl := Option.some.inj (ha.symm.trans ha')
      obtain rfl := Option.some.inj (hp.symm.trans hp')
      exact ⟨po, hpo, fun _ => ⟨hfits, hR ⟨tables, rfl⟩⟩⟩
    · intro h
      obtain ⟨po', hpo', h'⟩ := h a p ha hp
      obtain rfl := Option.some.inj (hpo.symm.trans hpo')
      exact ⟨fine_ok _, fun _ => (h' hrefers).2⟩
  · rw [herror]
    refine iff_of_false (fun h => hunknown (fine_error.1 h.1)) fun h => hnot ?_
    obtain ⟨po, hpo, h'⟩ := h a p ha hp
    exact ⟨po, hpo, fun hrefers => (h' hrefers).1⟩

theorem newRecord_insertReceipt (hid : ids.recordId ∉ db.tables.receipts.map (·.id)) {tables : Tables}
    (h : db.insertReceipt E ids v = .ok tables) : NewRecord .goodsReceipt ids.recordId db.tables tables := by
  rcases insertReceipt_cases (E := E) (v := v) hid with
    ⟨-, e, herror, -⟩ | ⟨a, p, -, -, ⟨-, tables', hok, hnew⟩ | ⟨-, e, herror, -⟩⟩
  · rw [herror] at h
    cases h
  · rw [hok] at h
    exact Except.ok.inj h ▸ hnew
  · rw [herror] at h
    cases h

end

section

variable {E : ConfirmEnv} {db : CaseDatabase} {d : CaseDocument} {q : ConfirmRequest} {ids : ConfirmIds}
  {type : CanonicalRecordType} {correctedFields : Json → Option (List String)} {canonical : Except CaseError Tables}

theorem record_error {run : SupportingRunRow} {corrected : List String} {e : CaseError}
    (h : db.record E d q ids type run corrected = .error e) : ¬ e.Known := by
  unfold CaseDatabase.record at h
  split at h
  · obtain rfl := Except.error.inj h
    exact id
  · next key hkey =>
    split at h
    swap
    · obtain rfl := Except.error.inj h
      exact id
    split at h
    · next e' he' =>
      obtain rfl := Except.error.inj h
      unfold CaseStore.confirm at he'
      split_ifs at he'
      obtain rfl := Except.error.inj he'
      exact id
    · next s hs =>
      cases hevent : CaseDatabase.confirmationEvent { db with store := s } d (q.row E d ids type run corrected key) with
      | ok found =>
        rw [hevent] at h
        cases h
      | error e' =>
        rw [hevent] at h
        obtain rfl := Except.error.inj h
        unfold CaseDatabase.confirmationEvent at hevent
        split_ifs at hevent
        obtain rfl := Except.error.inj hevent
        exact id

theorem confirm_ne_alreadyConfirmed (hcanonical : canonical ≠ .error alreadyConfirmed) :
    db.confirm E d q ids correctedFields type canonical ≠ .error alreadyConfirmed := by
  intro h
  unfold CaseDatabase.confirm at h
  rcases confirmationReplay_cases E db d q with ⟨-, hreplay⟩ | ⟨-, ⟨-, hreplay | ⟨c, hreplay⟩⟩ | ⟨-, hreplay⟩⟩
  · rw [hreplay] at h
    cases Except.error.inj h
  · rw [hreplay] at h
    have he := Except.error.inj h
    simp [caseKeyReused, alreadyConfirmed] at he
  · rw [hreplay] at h
    cases h
  · rw [hreplay] at h
    dsimp only at h
    split at h
    · have he := Except.error.inj h
      simp [staleCaseVersion, alreadyConfirmed] at he
    split at h
    · next e he =>
      obtain ⟨message, rfl⟩ := supportRun_error he
      cases Except.error.inj h
    · unfold CaseDatabase.confirmRun at h
      split at h
      · cases Except.error.inj h
      · split at h
        · have he := Except.error.inj h
          simp [alreadyConfirmed] at he
        split at h
        · exact hcanonical (congrArg Except.error (Except.error.inj h))
        · exact record_error h trivial

theorem settle_error {e : CaseError} : db.settle (.error e) = (db, .error e) := rfl

theorem settle_ok {found : CaseDatabase × CaseConfirmation} : db.settle (.ok found) = (found.1, .ok found.2) := rfl

/-- A confirmation is settled exactly when the attachment is not confirmed again and no other error is raised. -/
theorem settled_confirm_iff (hfresh : documentConfirmedKey ids.confirmationId ∉ db.events.map (·.eventKey))
    (hrecord : ∀ tables, canonical = .ok tables → NewRecord type ids.recordId db.tables tables)
    (hcanonical : canonical ≠ .error alreadyConfirmed) :
    Settled E db (some d) q type (db.settle (db.confirm E d q ids correctedFields type canonical)) ↔
      ¬ Reconfirms db d q ∧ Fine (db.confirm E d q ids correctedFields type canonical) := by
  have hne : db.confirm E d q ids correctedFields type canonical ≠ .error alreadyConfirmed :=
    confirm_ne_alreadyConfirmed hcanonical
  cases hconfirm : db.confirm E d q ids correctedFields type canonical with
  | error e =>
    rw [hconfirm] at hne
    rw [settle_error]
    constructor
    · rintro ⟨⟨c, hc, -⟩ | ⟨c, d', hc, -⟩ | ⟨e', he', hknown⟩, hagain⟩
      · cases hc
      · cases (Prod.mk.inj hc).2
      · refine ⟨fun hre => hne ?_, fine_error.2 ?_⟩
        · exact congrArg Except.error (Except.error.inj (Prod.mk.inj (hagain d rfl hre)).2)
        · rw [Except.error.inj (Prod.mk.inj he').2]
          exact hknown
    · rintro ⟨hfirst, hfine⟩
      refine ⟨.inr (.inr ⟨e, rfl, fine_error.1 hfine⟩), fun d' hd' hre => ?_⟩
      obtain rfl := Option.some.inj hd'
      exact absurd hre hfirst
  | ok found =>
    rw [settle_ok]
    have hagain : (∀ d', some d = some d' → Reconfirms db d' q →
        (found.1, Except.ok found.2) = (db, Except.error alreadyConfirmed)) ↔ ¬ Reconfirms db d q := by
      constructor
      · exact fun h hre => by cases (Prod.mk.inj (h d rfl hre)).2
      · intro h d' hd' hre
        obtain rfl := Option.some.inj hd'
        exact absurd hre h
    constructor
    · exact fun h => ⟨hagain.1 h.again, fine_ok _⟩
    · intro h
      refine ⟨?_, hagain.2 h.1⟩
      rcases confirm_returns hfresh hrecord hconfirm with hone | ⟨hsame, hreplay⟩
      · exact .inl ⟨found.2, rfl, hone⟩
      · exact .inr (.inl ⟨found.2, d, by rw [hsame], rfl, hreplay⟩)

/-- A command that is refused at once is settled, unless it is one that confirms again. -/
theorem settled_refused {attachment : Option CaseDocument} {e : CaseError} (hknown : e.Known) (hne : e ≠ alreadyConfirmed) :
    Settled E db attachment q type (db.settle (.error e)) ↔ ∀ d, attachment = some d → ¬ Reconfirms db d q := by
  rw [settle_error]
  constructor
  · intro h d hd hre
    exact hne (Except.error.inj (Prod.mk.inj (h.again d hd hre)).2)
  · intro h
    exact ⟨.inr (.inr ⟨e, rfl, hknown⟩), fun d hd hre => absurd hre (h d hd)⟩

theorem confirmPurchaseOrder_settled_iff (c : PurchaseOrderConfirmation) (hids : ids.Fresh db c.confirmed.lines.length) :
    Settled E db (db.store.active .purchaseOrder) (c.request E) .purchaseOrder (db.confirmPurchaseOrder E ids c) ↔
      ∀ d, db.store.active .purchaseOrder = some d → OrderConfirmable E db d c := by
  unfold CaseDatabase.confirmPurchaseOrder
  cases ha : db.store.active .purchaseOrder with
  | none =>
    simp only [CaseStore.activeAttachment, ha]
    rw [settled_refused (e := .caseNotReady _) trivial fun h => by cases h]
    exact iff_of_true (fun d hd => by cases hd) fun d hd => by cases hd
  | some d =>
    simp only [CaseStore.activeAttachment, ha, Option.some.injEq, forall_eq']
    have hinsert : db.insertOrder ids c.confirmed ≠ .error alreadyConfirmed := fun h =>
      insertOrder_error hids.lineIds h trivial
    rw [settled_confirm_iff hids.event (fun _ h => newRecord_insertOrder h) hinsert]
    constructor
    · rintro ⟨hfirst, hfine⟩
      obtain ⟨hkey, hproceeds⟩ := (fine_confirm_iff hfirst hids.confirmation hids.event).1 hfine
      refine ⟨hkey, hfirst, fun run output hp => ?_⟩
      obtain ⟨corrected, hcorrected, hfits⟩ := hproceeds run output hp
      obtain ⟨x, hx, rfl⟩ := Option.map_eq_some_iff.1 hcorrected
      refine ⟨x, hx, fun hreason => ?_⟩
      obtain ⟨hfine, hrecordable⟩ := hfits hreason
      have hfits := (fine_insertOrder_iff hids.lineIds).1 hfine
      exact ⟨hfits, hrecordable ((insertOrder_iff hids.lineIds).2 hfits)⟩
    · rintro ⟨hkey, hfirst, hfits⟩
      refine ⟨hfirst, (fine_confirm_iff hfirst hids.confirmation hids.event).2 ⟨hkey, fun run output hp => ?_⟩⟩
      obtain ⟨x, hx, hfits⟩ := hfits run output hp
      refine ⟨_, by rw [hx]; rfl, fun hreason => ?_⟩
      obtain ⟨hfits, hrecordable⟩ := hfits hreason
      exact ⟨(fine_insertOrder_iff hids.lineIds).2 hfits, fun _ => hrecordable⟩

theorem confirmReceipt_settled_iff (documentId : Uuid) (c : ReceiptConfirmation) {n : ℕ} (hids : ids.Fresh db n) :
    Settled E db (db.store.receiptAttachment documentId) (c.request E) .goodsReceipt
        (db.confirmReceipt E ids documentId c) ↔
      ∀ d, db.store.receiptAttachment documentId = some d → ReceiptConfirmable E db d c := by
  unfold CaseDatabase.confirmReceipt
  cases ha : db.store.receiptAttachment documentId with
  | none =>
    dsimp only
    rw [settled_refused (e := .caseNotFound) trivial fun h => by cases h]
    exact iff_of_true (fun d hd => by cases hd) fun d hd => by cases hd
  | some d =>
    simp only [Option.some.injEq, forall_eq']
    cases hsuccessor : db.store.hasSuccessor d.id with
    | true =>
      rw [if_pos rfl, settled_refused (e := .caseConflict _ _) trivial fun h => by simp [alreadyConfirmed] at h]
      refine ⟨fun h => ⟨h d rfl, fun hno => ?_, fun hno => ?_⟩, fun h d' hd' => ?_⟩
      · rw [hsuccessor] at hno
        cases hno
      · rw [hsuccessor] at hno
        cases hno
      · obtain rfl := Option.some.inj hd'
        exact h.first
    | false =>
      rw [if_neg Bool.false_ne_true]
      have hinsert : db.insertReceipt E ids c.confirmed ≠ .error alreadyConfirmed := by
        rcases insertReceipt_cases (E := E) (v := c.confirmed) hids.receipt with
          ⟨-, e, herror, -, hne⟩ | ⟨a, p, -, -, ⟨-, tables, hok, -⟩ | ⟨-, e, herror, hunknown⟩⟩
        · rw [herror]
          exact fun h => hne (Except.error.inj h)
        · rw [hok]
          exact fun h => by cases h
        · rw [herror]
          rintro h
          obtain rfl := Except.error.inj h
          exact hunknown trivial
      rw [settled_confirm_iff hids.event (fun _ h => newRecord_insertReceipt hids.receipt h) hinsert]
      constructor
      · rintro ⟨hfirst, hfine⟩
        obtain ⟨hkey, hproceeds⟩ := (fine_confirm_iff hfirst hids.confirmation hids.event).1 hfine
        refine ⟨hfirst, fun _ => hkey _ rfl, fun _ run output hp => ?_⟩
        obtain ⟨corrected, hcorrected, hfits⟩ := hproceeds run output hp
        obtain ⟨x, hx, rfl⟩ := Option.map_eq_some_iff.1 hcorrected
        exact ⟨x, hx, fun hreason => (fine_insertReceipt_iff hids.receipt).1 (hfits hreason)⟩
      · rintro ⟨hfirst, hkey, hfits⟩
        refine ⟨hfirst, (fine_confirm_iff hfirst hids.confirmation hids.event).2 ⟨fun k hk => ?_, fun run output hp => ?_⟩⟩
        · obtain rfl := Option.some.inj hk
          exact hkey hsuccessor
        · obtain ⟨x, hx, hfits⟩ := hfits hsuccessor run output hp
          exact ⟨_, by rw [hx]; rfl, fun hreason => (fine_insertReceipt_iff hids.receipt).2 (hfits hreason)⟩

/-- The command as the store of the case has it. -/
def ConfirmRequest.command {V : Type} (q : ConfirmRequest) (key : String) (confirmed : V) : ConfirmCommand V where
  expectedCaseVersion := q.expectedCaseVersion
  extractionRunId := q.extractionRunId
  extractorVersion := q.extractorVersion
  confirmed := confirmed
  payload := q.payload
  correctionReason := q.correctionReason
  idempotencyKey := key

theorem confirm_of_record {run : SupportingRunRow} {corrected : List String} {db' : CaseDatabase} {c : CaseConfirmation}
    (h : db.record E d q ids type run corrected = .ok (db', c)) : ∃ key, q.idempotencyKey = some key ∧
      db.store.confirm (q.row E d ids type run corrected key) = .ok db'.store := by
  unfold CaseDatabase.record at h
  split at h
  · cases h
  · next key hkey =>
    split at h
    swap
    · cases h
    split at h
    · cases h
    · next s hs =>
      unfold CaseDatabase.confirmationEvent at h
      split_ifs at h
      · obtain ⟨rfl, -⟩ := Prod.mk.inj (Except.ok.inj h)
        exact ⟨key, hkey, hs⟩
      · obtain ⟨rfl, -⟩ := Prod.mk.inj (Except.ok.inj h)
        exact ⟨key, hkey, hs⟩
      · cases h

/-- What is stored here is what the store of the case does with the command. -/
theorem confirmPo_of_confirmRun {run : SupportingRunRow} {output : Json} {names : List String} {db' : CaseDatabase}
    {c : CaseConfirmation} {v : PurchaseOrderConfirmationValues} (hproceeds : Proceeds db d q run output)
    (hnames : ∀ key, E.case.poCorrectedFields output (q.command key v.values) = names)
    (h : db.confirmRun E d q ids (some names) .purchaseOrder (db.insertOrder ids v) run = .ok (db', c)) :
    ∃ key po, db.store.confirmPo E.case d (q.command key v.values) ids = .ok (db'.store, po) := by
  unfold CaseDatabase.confirmRun at h
  dsimp only at h
  split_ifs at h with hreason
  split at h
  · cases h
  · next tables htables =>
    obtain ⟨key, hkey, hconfirm⟩ := confirm_of_record h
    unfold CaseDatabase.insertOrder at htables
    split at htables
    · cases htables
    · next po hpo =>
      have hconfirmable : db.store.confirmable d (q.command key v.values) E.case.poCorrectedFields = .ok (run, names) := by
        unfold CaseStore.confirmable
        have hrun : db.store.supportRun d (q.command key v.values).extractionRunId
          (q.command key v.values).extractorVersion = .ok (run, output) := hproceeds.run
        have hmissing : ¬ (names ≠ [] ∧ (q.command key v.values).correctionReason.getD "" = "") := by
          simpa [ConfirmRequest.reasoned, ConfirmRequest.command] using hreason
        have hversion : ¬ db.store.case.version ≠ (q.command key v.values).expectedCaseVersion :=
          not_not.2 hproceeds.version
        rw [if_neg hversion, hrun]
        dsimp only
        rw [hnames, if_neg hmissing]
      have horder : canonicalOrder ids (q.command key v.values).confirmed = some po := hpo
      refine ⟨key, po, ?_⟩
      have hrow : E.case.confirmationRow d (q.command key v.values) ids .purchaseOrder run names =
        q.row E d ids .purchaseOrder run names key := rfl
      have hstore : db.store.confirm (q.row E d ids .purchaseOrder run names key) = .ok db'.store := hconfirm
      simp only [CaseStore.confirmPo, hconfirmable, horder, hrow, hstore]
      rfl

end

/-- Both confirmations do what a caller is told exactly when the attachment is confirmed for the first time, the key can
be looked up, the stored output can be read and, where the command gets that far, the columns take its values; a receipt
also needs the confirmed purchase order, a number that is new on it and not blank, and a time with an offset that is
there in UTC. -/
theorem confirmations_settle_iff (E : ConfirmEnv) (db : CaseDatabase) (ids : ConfirmIds)
    (order : PurchaseOrderConfirmation) (documentId : Uuid) (receipt : ReceiptConfirmation)
    (hids : ids.Fresh db order.confirmed.lines.length) :
    (Settled E db (db.store.active .purchaseOrder) (order.request E) .purchaseOrder
        (db.confirmPurchaseOrder E ids order) ↔
      ∀ d, db.store.active .purchaseOrder = some d → OrderConfirmable E db d order) ∧
    (Settled E db (db.store.receiptAttachment documentId) (receipt.request E) .goodsReceipt
        (db.confirmReceipt E ids documentId receipt) ↔
      ∀ d, db.store.receiptAttachment documentId = some d → ReceiptConfirmable E db d receipt) :=
  ⟨confirmPurchaseOrder_settled_iff order hids, confirmReceipt_settled_iff documentId receipt hids⟩

/-- The stored output of the taps' order and receipt is read as it was extracted. -/
def tapConfirmEnv : ConfirmEnv where
  case := tapCaseEnv
  dumpOrder _ := .obj []
  dumpReceipt _ := .obj []
  readOrder _ := some tapOrderRead
  readReceipt _ := some tapReceiptRead

/-- A case with the order of the taps, which has been confirmed before. -/
def tapDatabase : CaseDatabase where
  store :=
    { case := ⟨.readyToMatch, 4⟩
      documents := [⟨.ofNat 101, .ofNat 100, .purchaseOrder, 1, some .purchaseOrder, none, "attach", ""⟩]
      confirmations := [⟨.ofNat 103, .ofNat 101, .ofNat 102, "v1", .purchaseOrder, .ofNat 104, [], none, "first", "", 0⟩]
      contexts := []
      uploads := []
      supporting := [⟨.ofNat 102, .ofNat 100, .purchaseOrder, "v1", ⟨.succeeded, some (.obj []), none, none, none⟩⟩] }
  tables := .empty
  events := []

def tapConfirmation : PurchaseOrderConfirmation where
  expectedCaseVersion := 4
  extractionRunId := .ofNat 102
  extractorVersion := "v1"
  confirmed := tapOrderValues
  correctionReason := some "retyped"
  idempotencyKey := some "second"
  version_pos := by decide
  extractor_length := by decide
  reason_text := by decide
  key_text := by decide

def tapReceiptConfirmation : ReceiptConfirmation where
  expectedCaseVersion := 4
  extractionRunId := .ofNat 102
  extractorVersion := "v1"
  confirmed := tapReceiptValues
  correctionReason := none
  idempotencyKey := "third"
  version_pos := by decide
  extractor_length := by decide
  reason_length := by decide
  key_length := by decide

theorem tapIds_fresh : (tapIds 200).Fresh tapDatabase tapOrderValues.lines.length where
  confirmation := by decide
  event := by simp [tapDatabase]
  receipt := by simp [tapDatabase, Tables.empty]
  lineIds m hm n hn _ := by
    have hm : m < 1 := hm
    have hn : n < 1 := hn
    omega

/-- The second confirmation of the order raises the violation of the key. -/
theorem reconfirmation_raises :
    (tapDatabase.confirmPurchaseOrder tapConfirmEnv (tapIds 200) tapConfirmation).2 = .error .integrity ∧
      ¬ Settled tapConfirmEnv tapDatabase (tapDatabase.store.active .purchaseOrder)
        (tapConfirmation.request tapConfirmEnv) .purchaseOrder
        (tapDatabase.confirmPurchaseOrder tapConfirmEnv (tapIds 200) tapConfirmation) := by
  have hraises : (tapDatabase.confirmPurchaseOrder tapConfirmEnv (tapIds 200) tapConfirmation).2 =
    .error .integrity := rfl
  refine ⟨hraises, fun h => ?_⟩
  rcases h.outcome with ⟨c, hc, -⟩ | ⟨c, d, hc, -⟩ | ⟨e, he, hknown⟩
  · rw [hraises] at hc
    cases hc
  · rw [hc] at hraises
    cases hraises
  · rw [he] at hraises
    obtain rfl := Except.error.inj hraises
    exact hknown

/-- The same case before the order was confirmed. -/
def tapDatabaseBefore : CaseDatabase :=
  { tapDatabase with store := { tapDatabase.store with confirmations := [] } }

theorem tapIds_fresh_before : (tapIds 200).Fresh tapDatabaseBefore tapConfirmation.confirmed.lines.length where
  confirmation := List.not_mem_nil
  event := tapIds_fresh.event
  receipt := tapIds_fresh.receipt
  lineIds := tapIds_fresh.lineIds

theorem tapOrderValues_fits : OrderFits tapOrderValues where
  number := by decide
  vendor := by decide
  texts := by decide
  amounts := by decide +kernel

theorem confirmations_settle_iff_taps :
    (tapIds 200).Fresh tapDatabaseBefore tapConfirmation.confirmed.lines.length ∧
      Settled tapConfirmEnv tapDatabaseBefore (tapDatabaseBefore.store.active .purchaseOrder)
        (tapConfirmation.request tapConfirmEnv) .purchaseOrder
        (tapDatabaseBefore.confirmPurchaseOrder tapConfirmEnv (tapIds 200) tapConfirmation) := by
  refine ⟨tapIds_fresh_before, (confirmations_settle_iff tapConfirmEnv tapDatabaseBefore (tapIds 200) tapConfirmation
    (.ofNat 300) tapReceiptConfirmation tapIds_fresh_before).1.2 fun d _ => ⟨by decide, ?_, fun _ _ _ => ?_⟩⟩
  · rintro ⟨hmem, -⟩
    exact List.not_mem_nil hmem
  · exact ⟨tapOrderRead, rfl, fun _ => ⟨tapOrderValues_fits, rfl, by decide, by decide, by decide⟩⟩

end InvoiceOps
