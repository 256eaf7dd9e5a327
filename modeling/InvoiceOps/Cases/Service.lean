import InvoiceOps.Cases.Store
import InvoiceOps.Matching.Idempotence

/-! The commands on a payable case, one after the other, together with everything else that happens to the tables:
matches and receipts of others, and the workers. `CaseMoves` says what a step can do to the case. -/

namespace InvoiceOps

open Calendar StateMachine

section

variable (E : CaseEnv) (s : CaseStore) (db : Tables)

/-- `PayableCaseService.attach`: the case after it, and the attachment it returns. An ingested document stays when
the attachment is refused. -/
def CaseStore.attach (c : AttachCommand) (documentId attachmentId : Uuid) : CaseStore × Except CaseError CaseDocument :=
  match s.attachReplay E c with
  | .error e => (s, .error e)
  | .ok (some d) => (s, .ok d)
  | .ok none =>
    if s.case.version ≠ c.expectedCaseVersion then (s, .error staleCaseVersion)
    else
      let found := s.ingest c.sha256 documentId
      match found.1.attachLocked E db c s.case (found.1.jobDone found.2) found.2 attachmentId with
      | .ok s' => (s', .ok (found.1.attachment E c found.2 attachmentId))
      | .error e => (found.1, .error e)

/-- `confirm_purchase_order`; nothing is returned for a replay. -/
def CaseStore.confirmPurchaseOrder (c : ConfirmCommand PurchaseOrderValues) (ids : ConfirmIds) :
    Except CaseError (Option (CaseStore × PurchaseOrder)) :=
  match s.activeAttachment .purchaseOrder with
  | .error e => .error e
  | .ok d =>
    match s.confirmationReplay c.idempotencyKey (E.fingerprint (confirmationJson d.id c.payload)) with
    | .error e => .error e
    | .ok (some _) => .ok none
    | .ok none => (s.confirmPo E d c ids).map some

/-- The attachment `confirm_receipt` is about. -/
def CaseStore.receiptAttachment (documentId : Uuid) : Option CaseDocument :=
  s.documents.find? fun d => d.documentId = documentId ∧ d.role.isReceipt = true

/-- `confirm_receipt`; nothing is returned for a replay. -/
def CaseStore.confirmGoodsReceipt (documentId : Uuid) (c : ConfirmCommand ReceiptValues) (ids : ConfirmIds) :
    Except CaseError (Option (CaseStore × GoodsReceipt)) :=
  match s.receiptAttachment documentId with
  | none => .error .caseNotFound
  | some d =>
    if s.hasSuccessor d.id then .error (.caseConflict "ATTACHMENT_SUPERSEDED" "A superseded receipt cannot be confirmed")
    else
      match s.confirmationReplay c.idempotencyKey (E.fingerprint (confirmationJson d.id c.payload)) with
      | .error e => .error e
      | .ok (some _) => .ok none
      | .ok none => (s.confirmReceipt E d db c ids).map some

end

/-- The case, and the tables with the transactions on them. -/
structure CaseWorld where
  store : CaseStore
  world : MatchWorld

def CaseWorld.initial : CaseWorld := ⟨.created, .initial⟩

inductive CaseAct
  | service (a : ServiceAct)
  | attach (c : AttachCommand) (documentId attachmentId : Uuid)
  | confirmPurchaseOrder (c : ConfirmCommand PurchaseOrderValues) (ids : ConfirmIds)
  | confirmReceipt (documentId : Uuid) (c : ConfirmCommand ReceiptValues) (ids : ConfirmIds)
  | matchCase (c : CaseMatchCommand) (fresh : FreshIds)
  | jobSucceeded (documentId : Uuid)
  | jobFailed (documentId : Uuid)
  | supportSucceeded (attachmentId : Uuid) (r : SupportingRunRow)
  | supportFailed (attachmentId : Uuid) (r : SupportingRunRow)
  | supportMarked (attachmentId : Uuid) (r : SupportingRunRow)

/-- The call of the matching service for a context. -/
def CaseContext.call (context : CaseContext) (fresh : FreshIds) : ServiceAct :=
  .call context.invoiceDocumentId context.purchaseOrderId context.matchingMode fresh

section

variable (E : CaseEnv) (w : CaseWorld)

def CaseEnv.callMatch (db : Tables) (fresh : FreshIds) (context : CaseContext) : Except MatchError MatchServiceResult :=
  E.matching.callMatch db fresh context.invoiceDocumentId context.purchaseOrderId context.matchingMode

/-- `PayableCaseService.match`: the run it returns. -/
def CaseWorld.matchCase (c : CaseMatchCommand) (fresh : FreshIds) : Except CaseError MatchRun :=
  match w.store.planMatch E w.world.db c with
  | .error e => .error e
  | .ok (.replay run) => .ok run
  | .ok (.call context) =>
    match E.callMatch w.world.db fresh context with
    | .error e => .error (.matching e)
    | .ok r => (w.store.finishMatch E r.tables c w.store.case context r.run).map fun _ => r.run

/-- The case after the matching service has returned. -/
def CaseStore.afterMatch (s : CaseStore) (c : CaseMatchCommand) (context : CaseContext)
    (result : Except MatchError MatchServiceResult) : CaseStore :=
  match result with
  | .error _ => s
  | .ok r =>
    match s.finishMatch E r.tables c s.case context r.run with
    | .ok s' => s'
    | .error _ => s

/-- A supporting worker on an attachment, with the run it has written. -/
def CaseWorld.support (attachmentId : Uuid) (r : SupportingRunRow) (f : CaseDocument → CaseStore) : Option CaseWorld :=
  match w.store.documents.find? (·.id = attachmentId) with
  | none => none
  | some d =>
    if d.role ≠ .invoice ∧ r.documentId = d.documentId ∧ r.role = d.role then some { w with store := f d } else none

/-- One command or one step of the others. A command that is refused leaves the case as it is. -/
def CaseWorld.next : CaseAct → Option CaseWorld
  | .service a => (w.world.nextService E.matching a).map fun world => { w with world := world }
  | .attach c documentId attachmentId =>
    some { w with store := (w.store.attach E w.world.db c documentId attachmentId).1 }
  | .confirmPurchaseOrder c ids =>
    match w.store.confirmPurchaseOrder E c ids with
    | .ok (some (s, po)) => (w.world.nextService E.matching (.act (.createOrder po))).map fun world => ⟨s, world⟩
    | _ => some w
  | .confirmReceipt documentId c ids =>
    match w.store.confirmGoodsReceipt E w.world.db documentId c ids with
    | .ok (some (s, r)) => (w.world.nextService E.matching (.act (.confirmReceipt r))).map fun world => ⟨s, world⟩
    | _ => some w
  | .matchCase c fresh =>
    match w.store.planMatch E w.world.db c with
    | .ok (.call context) => (w.world.nextService E.matching (context.call fresh)).map fun world =>
        ⟨w.store.afterMatch E c context (E.callMatch w.world.db fresh context), world⟩
    | _ => some w
  | .jobSucceeded documentId =>
    if (w.world.db.currentExtraction documentId).isSome ∧
        ∃ d ∈ w.store.uploads, d.id = documentId ∧ d.jobStatus ≠ .succeeded then
      some { w with store := w.store.jobSucceeded documentId (w.store.invoiceActive documentId) }
    else none
  | .jobFailed documentId =>
    if ∃ d ∈ w.store.uploads, d.id = documentId ∧ d.jobStatus = .succeeded then some w
    else some { w with store := w.store.jobFailed documentId .processing (w.store.invoiceActive documentId) }
  | .supportSucceeded attachmentId r => w.support attachmentId r fun d => w.store.supportSucceeded d r
  | .supportFailed attachmentId r => w.support attachmentId r fun _ => w.store.supportFailed r
  | .supportMarked attachmentId r => w.support attachmentId r fun d => w.store.supportMarked d r

end

/-- An attachment is committed. -/
structure Attached (E : CaseEnv) (s : CaseStore) (c : AttachCommand) (s' : CaseStore) : Prop where
  rest : s'.confirmations = s.confirmations ∧ s'.contexts = s.contexts
  case : s'.case.version = s.case.version + 1 ∧
    (s'.case.status = .processing ∨ s'.case.status = .needsConfirmation)
  documents : ∃ documents documentId attachmentId, s.supersede c = .ok documents ∧
    (∀ d ∈ s.documents, d.id ≠ attachmentId ∧ d.idempotencyKey ≠ c.idempotencyKey) ∧
    s'.documents = documents ++ [s.attachment E c documentId attachmentId]

/-- The confirmation `c` is committed. -/
structure Confirmed (s : CaseStore) (c : CaseConfirmation) (s' : CaseStore) : Prop where
  fresh : ∀ c' ∈ s.confirmations, c'.caseDocumentId ≠ c.caseDocumentId
  store : s' = { s with
    case := ⟨s.statusAfterConfirmation c.caseDocumentId, s.case.version + 1⟩
    confirmations := s.confirmations ++ [c] }

/-- What a step does to the case. -/
inductive CaseMoves (E : CaseEnv) (w : CaseWorld) (a : CaseAct) : CaseWorld → Prop
  | service {b : ServiceAct} {world : MatchWorld} : w.world.nextService E.matching b = some world →
      CaseMoves E w a { w with world := world }
  /-- Nothing but the row of the case, an upload or a supporting run: a command that is refused or replayed, or a
  worker. -/
  | rows {s : CaseStore} : s.documents = w.store.documents → s.confirmations = w.store.confirmations →
      s.contexts = w.store.contexts →
      (s.case = w.store.case ∨ s.case.status = .needsConfirmation ∨ s.case.status = .failed) →
      CaseMoves E w a { w with store := s }
  | attach {c : AttachCommand} {s : CaseStore} : Attached E w.store c s → CaseMoves E w a { w with store := s }
  | order {cmd : ConfirmCommand PurchaseOrderValues} {ids : ConfirmIds} {d : CaseDocument} {c : CaseConfirmation}
      {po : PurchaseOrder} {s : CaseStore} {world : MatchWorld} : a = .confirmPurchaseOrder cmd ids →
      w.store.active .purchaseOrder = some d → c.caseDocumentId = d.id → c.canonicalRecordType = .purchaseOrder →
      c.canonicalRecordId = po.id → Confirmed w.store c s →
      w.world.nextService E.matching (.act (.createOrder po)) = some world → CaseMoves E w a ⟨s, world⟩
  | receipt {documentId : Uuid} {cmd : ConfirmCommand ReceiptValues} {ids : ConfirmIds} {d po : CaseDocument}
      {c p : CaseConfirmation} {r : GoodsReceipt} {s : CaseStore} {world : MatchWorld} :
      a = .confirmReceipt documentId cmd ids → w.store.receiptAttachment documentId = some d →
      w.store.hasSuccessor d.id = false → c.caseDocumentId = d.id → c.canonicalRecordType = .goodsReceipt →
      c.canonicalRecordId = r.id → w.store.active .purchaseOrder = some po → w.store.confirmation po.id = some p →
      r.purchaseOrderId = p.canonicalRecordId → w.world.db.AcceptsReceipt r → Confirmed w.store c s →
      w.world.nextService E.matching (.act (.confirmReceipt r)) = some world → CaseMoves E w a ⟨s, world⟩
  | matched {c : CaseMatchCommand} {fresh : FreshIds} {context : CaseContext} {r : MatchServiceResult} {s : CaseStore}
      {world : MatchWorld} : a = .matchCase c fresh → w.store.planMatch E w.world.db c = .ok (.call context) →
      E.callMatch w.world.db fresh context = .ok r → w.world.nextService E.matching (context.call fresh) = some world →
      w.store.finishMatch E r.tables c w.store.case context r.run = .ok s → CaseMoves E w a ⟨s, world⟩

section

variable {E : CaseEnv} {w w' : CaseWorld} {a : CaseAct} {s s' : CaseStore} {db : Tables}

theorem ingest_rows (s : CaseStore) (sha256 : String) (newId : Uuid) :
    (s.ingest sha256 newId).1.documents = s.documents ∧ (s.ingest sha256 newId).1.confirmations = s.confirmations ∧
      (s.ingest sha256 newId).1.contexts = s.contexts ∧ (s.ingest sha256 newId).1.case = s.case := by
  unfold CaseStore.ingest
  split
  · exact ⟨rfl, rfl, rfl, rfl⟩
  · exact ⟨rfl, rfl, rfl, rfl⟩

theorem supersede_congr {c : AttachCommand} (h : s'.documents = s.documents) : s'.supersede c = s.supersede c := by
  obtain ⟨case, documents, confirmations, contexts, uploads, supporting⟩ := s
  obtain ⟨case', documents', confirmations', contexts', uploads', supporting'⟩ := s'
  obtain rfl : documents' = documents := h
  rfl

theorem attachLocked_ok {c : AttachCommand} {loaded : PayableCase} {jobDone : Bool} {documentId attachmentId : Uuid}
    (h : s.attachLocked E db c loaded jobDone documentId attachmentId = .ok s') :
    loaded.version = c.expectedCaseVersion ∧ ∃ documents status, s.supersede c = .ok documents ∧
      status = (if c.alreadyExtracted db jobDone documentId then .needsConfirmation else .processing) ∧
      (∀ d ∈ s.documents, d.id ≠ attachmentId ∧ d.idempotencyKey ≠ c.idempotencyKey) ∧
      s' = { s with
        case := s.case.write loaded status
        documents := documents ++ [s.attachment E c documentId attachmentId] } := by
  unfold CaseStore.attachLocked at h
  split at h
  · cases h
  · next hversion =>
    split at h
    · cases h
    · split at h
      · cases h
      · next documents hdocuments =>
        split at h
        · cases h
        · next hkeys =>
          obtain rfl := Except.ok.inj h
          refine ⟨not_ne_iff.1 hversion, documents, _, hdocuments, rfl, fun d hd => ⟨fun hid => ?_, fun hkey => ?_⟩, rfl⟩
          · exact hkeys ⟨d, hd, .inl hid⟩
          · exact hkeys ⟨d, hd, .inr hkey⟩

theorem attachStatus_cases {c : AttachCommand} {jobDone : Bool} {documentId : Uuid} {status : CaseStatus}
    (h : status = if c.alreadyExtracted db jobDone documentId then .needsConfirmation else .processing) :
    status = .processing ∨ status = .needsConfirmation := by
  rw [h]
  split_ifs
  · exact .inr rfl
  · exact .inl rfl

theorem moves_attach {c : AttachCommand} {documentId attachmentId : Uuid} :
    CaseMoves E w a { w with store := (w.store.attach E w.world.db c documentId attachmentId).1 } := by
  obtain ⟨hdocuments, hconfirmations, hcontexts, hcase⟩ := ingest_rows w.store c.sha256 documentId
  unfold CaseStore.attach
  dsimp only
  split
  · exact .rows rfl rfl rfl (.inl rfl)
  · exact .rows rfl rfl rfl (.inl rfl)
  · split_ifs
    · exact .rows rfl rfl rfl (.inl rfl)
    · split
      · next s' hlocked =>
        obtain ⟨-, documents, status, hsupersede, hstatus, hids, rfl⟩ := attachLocked_ok hlocked
        rw [supersede_congr hdocuments] at hsupersede
        rw [hdocuments] at hids
        refine .attach (c := c) ⟨⟨hconfirmations, hcontexts⟩, ?_, documents,
          (w.store.ingest c.sha256 documentId).2, attachmentId, hsupersede, hids, ?_⟩
        · simp only [hcase, PayableCase.write_self]
          exact ⟨trivial, attachStatus_cases hstatus⟩
        · simp only [CaseStore.attachment, hdocuments]
      · exact .rows hdocuments hconfirmations hcontexts (.inl hcase)

theorem confirm_ok {c : CaseConfirmation} (h : s.confirm c = .ok s') : Confirmed s c s' := by
  unfold CaseStore.confirm at h
  split_ifs at h with hkeys
  obtain rfl := Except.ok.inj h
  refine ⟨fun c' hc' heq => hkeys ⟨c', hc', .inr (.inl heq)⟩, ?_⟩
  rw [PayableCase.write_self]

theorem activeAttachment_ok {role : DocumentRole} {d : CaseDocument} (h : s.activeAttachment role = .ok d) :
    s.active role = some d := by
  unfold CaseStore.activeAttachment at h
  split at h
  · next d' hd' => rw [hd', Except.ok.inj h]
  · cases h

theorem canonicalOrder_id {ids : ConfirmIds} {v : PurchaseOrderValues} {po : PurchaseOrder}
    (h : canonicalOrder ids v = some po) : po.id = ids.recordId := by
  unfold canonicalOrder at h
  split_ifs at h
  rw [← Option.some.inj h]

theorem canonicalReceipt_id {ids : ConfirmIds} {po : PurchaseOrder} {v : ReceiptValues} {t : Calendar.DateTime}
    {lines : List GoodsReceiptLine} {r : GoodsReceipt} (h : canonicalReceipt E ids po v t lines = some r) :
    r.id = ids.recordId ∧ r.purchaseOrderId = po.id := by
  unfold canonicalReceipt at h
  split_ifs at h
  rw [← Option.some.inj h]
  exact ⟨rfl, rfl⟩

theorem confirmPo_ok {d : CaseDocument} {cmd : ConfirmCommand PurchaseOrderValues} {ids : ConfirmIds}
    {po : PurchaseOrder} (h : s.confirmPo E d cmd ids = .ok (s', po)) :
    ∃ c : CaseConfirmation, c.caseDocumentId = d.id ∧ c.canonicalRecordType = .purchaseOrder ∧
      c.canonicalRecordId = po.id ∧ Confirmed s c s' := by
  unfold CaseStore.confirmPo at h
  split at h
  · cases h
  · next run corrected hconfirmable =>
    split at h
    · cases h
    · next po' hpo =>
      cases hconfirm : s.confirm (E.confirmationRow d cmd ids .purchaseOrder run corrected) with
      | error e =>
        rw [hconfirm] at h
        cases h
      | ok s'' =>
        rw [hconfirm] at h
        obtain ⟨rfl, rfl⟩ := Prod.mk.inj (Except.ok.inj h)
        exact ⟨_, rfl, rfl, (canonicalOrder_id hpo).symm, confirm_ok hconfirm⟩

theorem confirmReceipt_ok {d : CaseDocument} {cmd : ConfirmCommand ReceiptValues} {ids : ConfirmIds}
    {r : GoodsReceipt} (h : s.confirmReceipt E d db cmd ids = .ok (s', r)) :
    ∃ (po : CaseDocument) (c p : CaseConfirmation), c.caseDocumentId = d.id ∧ c.canonicalRecordType = .goodsReceipt ∧
      c.canonicalRecordId = r.id ∧ s.active .purchaseOrder = some po ∧ s.confirmation po.id = some p ∧
      r.purchaseOrderId = p.canonicalRecordId ∧ db.AcceptsReceipt r ∧ Confirmed s c s' := by
  unfold CaseStore.confirmReceipt at h
  split at h
  · cases h
  · next run corrected hconfirmable =>
    split at h
    · cases h
    · next po hpo =>
      split at h
      · cases h
      · next p hp =>
        split at h
        · cases h
        · next order horder =>
          split at h
          · cases h
          split at h
          · cases h
          · next lines hlines =>
            split at h
            swap
            · cases h
            split at h
            · cases h
            split at h
            · cases h
            · next receipt hreceipt =>
              split_ifs at h with haccepts
              cases hconfirm : s.confirm (E.confirmationRow d cmd ids .goodsReceipt run corrected) with
              | error e =>
                rw [hconfirm] at h
                cases h
              | ok s'' =>
                rw [hconfirm] at h
                obtain ⟨rfl, rfl⟩ := Prod.mk.inj (Except.ok.inj h)
                obtain ⟨hid, horderId⟩ := canonicalReceipt_id hreceipt
                obtain ⟨-, hpoId⟩ := Tables.mem_purchaseOrders horder
                exact ⟨po, _, p, rfl, rfl, hid.symm, activeAttachment_ok hpo, hp, horderId.trans hpoId, haccepts,
                  confirm_ok hconfirm⟩

theorem moves_support {attachmentId : Uuid} {r : SupportingRunRow} {f : CaseDocument → CaseStore}
    (hf : ∀ d, CaseMoves E w a { w with store := f d }) (h : w.support attachmentId r f = some w') :
    CaseMoves E w a w' := by
  unfold CaseWorld.support at h
  split at h
  · cases h
  · split_ifs at h
    exact Option.some.inj h ▸ hf _

theorem caseMoves_of_next (h : w.next E a = some w') : CaseMoves E w a w' := by
  cases a with
  | service b =>
    obtain ⟨world, hworld, rfl⟩ := Option.map_eq_some_iff.1 h
    exact .service hworld
  | attach c documentId attachmentId => exact Option.some.inj h ▸ moves_attach
  | confirmPurchaseOrder cmd ids =>
    simp only [CaseWorld.next] at h
    split at h
    · next s po hconfirm =>
      obtain ⟨world, hworld, rfl⟩ := Option.map_eq_some_iff.1 h
      unfold CaseStore.confirmPurchaseOrder at hconfirm
      split at hconfirm
      · cases hconfirm
      · next d hd =>
        split at hconfirm
        · cases hconfirm
        · cases hconfirm
        · cases hpo : w.store.confirmPo E d cmd ids with
          | error e =>
            rw [hpo] at hconfirm
            cases hconfirm
          | ok found =>
            rw [hpo] at hconfirm
            obtain rfl := Option.some.inj (Except.ok.inj hconfirm)
            obtain ⟨c, hc, htype, hrecord, hconfirmed⟩ := confirmPo_ok hpo
            exact .order rfl (activeAttachment_ok hd) hc htype hrecord hconfirmed hworld
    · exact Option.some.inj h ▸ .rows rfl rfl rfl (.inl rfl)
  | confirmReceipt documentId cmd ids =>
    simp only [CaseWorld.next] at h
    split at h
    · next s r hconfirm =>
      obtain ⟨world, hworld, rfl⟩ := Option.map_eq_some_iff.1 h
      unfold CaseStore.confirmGoodsReceipt at hconfirm
      split at hconfirm
      · cases hconfirm
      · next d hd =>
        split_ifs at hconfirm with hsuccessor
        split at hconfirm
        · cases hconfirm
        · cases hconfirm
        · cases hr : w.store.confirmReceipt E d w.world.db cmd ids with
          | error e =>
            rw [hr] at hconfirm
            cases hconfirm
          | ok found =>
            rw [hr] at hconfirm
            obtain rfl := Option.some.inj (Except.ok.inj hconfirm)
            obtain ⟨po, c, p, hc, htype, hrecord, hpo, hp, horder, haccepts, hconfirmed⟩ := confirmReceipt_ok hr
            exact .receipt rfl hd (by simpa using hsuccessor) hc htype hrecord hpo hp horder haccepts hconfirmed hworld
    · exact Option.some.inj h ▸ .rows rfl rfl rfl (.inl rfl)
  | matchCase c fresh =>
    simp only [CaseWorld.next] at h
    split at h
    · next context hplan =>
      obtain ⟨world, hworld, rfl⟩ := Option.map_eq_some_iff.1 h
      unfold CaseStore.afterMatch
      split
      · exact .service hworld
      · next r hr =>
        split
        · next s hs => exact .matched rfl hplan hr hworld hs
        · exact .service hworld
    · exact Option.some.inj h ▸ .rows rfl rfl rfl (.inl rfl)
  | jobSucceeded documentId =>
    simp only [CaseWorld.next] at h
    split_ifs at h
    obtain rfl := Option.some.inj h
    unfold CaseStore.jobSucceeded
    dsimp only
    split_ifs
    · exact .rows rfl rfl rfl (.inr (.inl rfl))
    · exact .rows rfl rfl rfl (.inl rfl)
  | jobFailed documentId =>
    simp only [CaseWorld.next] at h
    split_ifs at h
    · exact Option.some.inj h ▸ .rows rfl rfl rfl (.inl rfl)
    · obtain rfl := Option.some.inj h
      unfold CaseStore.jobFailed
      dsimp only
      split_ifs
      · exact .rows rfl rfl rfl (.inr (.inr rfl))
      · exact .rows rfl rfl rfl (.inl rfl)
  | supportSucceeded attachmentId r =>
    refine moves_support (fun d => ?_) h
    unfold CaseStore.supportSucceeded
    split_ifs
    · exact .rows rfl rfl rfl (.inr (.inl rfl))
    · exact .rows rfl rfl rfl (.inl rfl)
  | supportFailed attachmentId r =>
    refine moves_support (fun d => ?_) h
    exact .rows rfl rfl rfl (.inr (.inr rfl))
  | supportMarked attachmentId r =>
    refine moves_support (fun d => ?_) h
    unfold CaseStore.supportMarked
    split_ifs
    · exact .rows rfl rfl rfl (.inr (.inr rfl))
    · exact .rows rfl rfl rfl (.inl rfl)

theorem service_of_moves (h : CaseMoves E w a w') :
    ∃ acts, Steps (MatchWorld.nextService E.matching) w.world acts w'.world := by
  cases h with
  | service hworld => exact ⟨_, .single hworld⟩
  | rows => exact ⟨[], .nil⟩
  | attach => exact ⟨[], .nil⟩
  | order _ _ _ _ _ _ hworld => exact ⟨_, .single hworld⟩
  | receipt _ _ _ _ _ _ _ _ _ _ _ hworld => exact ⟨_, .single hworld⟩
  | matched _ _ _ hworld => exact ⟨_, .single hworld⟩

theorem service_of_steps {acts : List CaseAct} (h : Steps (CaseWorld.next E) w acts w') :
    ∃ acts', Steps (MatchWorld.nextService E.matching) w.world acts' w'.world := by
  induction h with
  | nil => exact ⟨[], .nil⟩
  | snoc _ hn ih =>
    obtain ⟨acts', hsteps⟩ := ih
    obtain ⟨acts'', hstep⟩ := service_of_moves (caseMoves_of_next hn)
    exact ⟨_, hsteps.trans hstep⟩

end

end InvoiceOps
