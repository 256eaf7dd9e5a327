import InvoiceOps.Cases.Readiness

/-! Several clients on one case, each with a session of its own. `attach` loads the row of the case, ingests the
document in a transaction of its own and only then takes the lock; `match` gives the lock back when the matching
service commits, and takes it again. A locked read does not refresh the row a session has loaded before, so that
both may write from an old row. A confirmation and a worker read the row under the lock. -/

namespace InvoiceOps

open StateMachine

/-- What a command or a worker has read between two of its transactions. -/
inductive CaseSession
  /-- `attach` has checked the version of the row it has loaded. -/
  | loaded (c : AttachCommand) (row : PayableCase)
  /-- The document is ingested, and its job read. Without a row, the insertion was rolled back, and the row is read
  again. -/
  | ingested (c : AttachCommand) (row : Option PayableCase) (jobDone : Bool) (documentId : Uuid)
  | confirmingOrder (c : ConfirmCommand PurchaseOrderValues) (d : CaseDocument)
  | confirmingReceipt (c : ConfirmCommand ReceiptValues) (d : CaseDocument)
  /-- `match` holds the row of the case, and has not called the matching service yet. -/
  | planned (c : CaseMatchCommand) (row : PayableCase) (context : CaseContext)
  /-- The matching service has returned. Without a row, it was rolled back. -/
  | called (c : CaseMatchCommand) (row : Option PayableCase) (context : CaseContext) (run : MatchRun)
  /-- `run_job` or `record_failure` has read its job, which has not succeeded. -/
  | job (documentId : Uuid) (loaded : JobStatus)
  /-- It has looked for the attachments of its document. -/
  | extracting (documentId : Uuid) (loaded : JobStatus) (active : Bool)
  /-- A supporting worker has loaded its attachment. -/
  | supporting (d : CaseDocument)

/-- A committed change of the row; a command expects a version. -/
structure Commit where
  expected : Option ℕ
  before : ℕ
  after : ℕ
deriving DecidableEq, Repr

/-- The case, the tables, who holds the row of the case, the sessions, and the changes of the row so far. -/
structure SessionWorld where
  store : CaseStore
  world : MatchWorld
  lock : Option ℕ
  sessions : ℕ → Option CaseSession
  commits : List Commit

def SessionWorld.initial : SessionWorld := ⟨.created, .initial, none, fun _ => none, []⟩

/-- How a supporting worker ends. -/
inductive SupportOutcome
  | succeeded
  | failed
  | marked

inductive SessionAct
  | service (a : ServiceAct)
  | load (i : ℕ) (c : AttachCommand)
  | ingest (i : ℕ) (documentId : Uuid) (rolledBack : Bool)
  | attach (i : ℕ) (attachmentId : Uuid)
  | readOrder (i : ℕ) (c : ConfirmCommand PurchaseOrderValues)
  | readReceipt (i : ℕ) (documentId : Uuid) (c : ConfirmCommand ReceiptValues)
  | confirm (i : ℕ) (ids : ConfirmIds)
  | plan (i : ℕ) (c : CaseMatchCommand)
  | call (i : ℕ) (fresh : FreshIds) (rolledBack : Bool)
  | finish (i : ℕ)
  | getJob (i : ℕ) (documentId : Uuid)
  | startJob (i : ℕ)
  | readJob (i : ℕ)
  | endJob (i : ℕ) (succeeded : Bool)
  | retryJob (i : ℕ)
  | readSupport (i : ℕ) (attachmentId : Uuid)
  | endSupport (i : ℕ) (r : SupportingRunRow) (outcome : SupportOutcome)
  | abort (i : ℕ)

section

variable (w : SessionWorld) (i : ℕ)

def SessionWorld.enter (phase : CaseSession) : SessionWorld :=
  { w with sessions := Function.update w.sessions i (some phase) }

/-- The session ends, and holds nothing any more. -/
def SessionWorld.leave : SessionWorld :=
  { w with
    sessions := Function.update w.sessions i none
    lock := if w.lock = some i then none else w.lock }

/-- The session ends with a new row of the case. -/
def SessionWorld.commit (s : CaseStore) (expected : Option ℕ) : SessionWorld :=
  { w.leave i with
    store := s
    commits := w.commits ++ [⟨expected, w.store.case.version, s.case.version⟩] }

/-- A worker ends; it may have left the row as it is. -/
def SessionWorld.work (s : CaseStore) : SessionWorld :=
  if s.case = w.store.case then { w.leave i with store := s } else w.commit i s none

end

def CaseStore.afterSupport (s : CaseStore) (d : CaseDocument) (r : SupportingRunRow) : SupportOutcome → CaseStore
  | .succeeded => s.supportSucceeded d r
  | .failed => s.supportFailed r
  | .marked => s.supportMarked d r

section

variable (E : CaseEnv) (w : SessionWorld)

/-- One step of a session that is not active yet: a command reads, and is refused or goes on. -/
def SessionWorld.start : SessionAct → Option CaseSession
  | .load _ c =>
    match w.store.attachReplay E c with
    | .ok none => if w.store.case.version = c.expectedCaseVersion then some (.loaded c w.store.case) else none
    | _ => none
  | .readOrder _ c =>
    match w.store.activeAttachment .purchaseOrder with
    | .error _ => none
    | .ok d =>
      match w.store.confirmationReplay c.idempotencyKey (E.fingerprint (confirmationJson d.id c.payload)) with
      | .ok none => some (.confirmingOrder c d)
      | _ => none
  | .readReceipt _ documentId c =>
    match w.store.receiptAttachment documentId with
    | none => none
    | some d =>
      if w.store.hasSuccessor d.id then none
      else
        match w.store.confirmationReplay c.idempotencyKey (E.fingerprint (confirmationJson d.id c.payload)) with
        | .ok none => some (.confirmingReceipt c d)
        | _ => none
  | .getJob _ documentId =>
    match w.store.uploads.find? (·.id = documentId) with
    | none => none
    | some d => if d.jobStatus = .succeeded then none else some (.job documentId d.jobStatus)
  | .readSupport _ attachmentId =>
    match w.store.documents.find? (·.id = attachmentId) with
    | none => none
    | some d => if d.role = .invoice then none else some (.supporting d)
  | _ => none

def SessionWorld.begin (i : ℕ) (a : SessionAct) : Option SessionWorld :=
  match w.sessions i with
  | some _ => none
  | none => some ((w.start E a).elim w (w.enter i))

/-- `attach` ingests its document. -/
def SessionWorld.ingest (i : ℕ) (documentId : Uuid) (rolledBack : Bool) : Option SessionWorld :=
  match w.sessions i with
  | some (.loaded c row) =>
    -- an insertion is rolled back when another upload of the same content was committed first, and its id is new
    if w.store.uploads.find? (·.sha256 = c.sha256) = none ∧
        (rolledBack = true ∨ documentId ∈ w.store.uploads.map (·.id)) then none
    else
      let found := w.store.ingest c.sha256 documentId
      some (SessionWorld.enter { w with store := found.1 } i
        (.ingested c (if rolledBack then none else some row) (found.1.jobDone found.2) found.2))
  | _ => none

/-- `attach` under the lock. -/
def SessionWorld.attach (i : ℕ) (attachmentId : Uuid) : Option SessionWorld :=
  match w.sessions i with
  | some (.ingested c row jobDone documentId) =>
    match w.store.attachLocked E w.world.db c (row.getD w.store.case) jobDone documentId attachmentId with
    | .ok s => some (w.commit i s (some c.expectedCaseVersion))
    | .error _ => some (w.leave i)
  | _ => none

/-- A confirmation under the lock, with the record it makes. -/
def SessionWorld.confirm (i : ℕ) (ids : ConfirmIds) : Option SessionWorld :=
  match w.sessions i with
  | some (.confirmingOrder c d) =>
    match w.store.confirmPo E d c ids with
    | .ok (s, po) => (w.world.nextService E.matching (.act (.createOrder po))).map fun world =>
        { w.commit i s (some c.expectedCaseVersion) with world := world }
    | .error _ => some (w.leave i)
  | some (.confirmingReceipt c d) =>
    match w.store.confirmReceipt E d w.world.db c ids with
    | .ok (s, r) => (w.world.nextService E.matching (.act (.confirmReceipt r))).map fun world =>
        { w.commit i s (some c.expectedCaseVersion) with world := world }
    | .error _ => some (w.leave i)
  | _ => none

/-- `match` after its call of the matching service, under the second lock. -/
def SessionWorld.finish (i : ℕ) : Option SessionWorld :=
  match w.sessions i with
  | some (.called c row context run) =>
    match w.store.finishMatch E w.world.db c (row.getD w.store.case) context run with
    | .ok s => some (w.commit i s (some c.expectedCaseVersion))
    | .error _ => some (w.leave i)
  | _ => none

/-- `run_job` says that it has started. -/
def SessionWorld.startJob (i : ℕ) : Option SessionWorld :=
  match w.sessions i with
  | some (.job documentId loaded) =>
    some (SessionWorld.enter { w with store := w.store.setJob documentId loaded .processing } i
      (.job documentId .processing))
  | _ => none

/-- A job looks for the attachments of its document. -/
def SessionWorld.readJob (i : ℕ) : Option SessionWorld :=
  match w.sessions i with
  | some (.job documentId loaded) =>
    some (w.enter i (.extracting documentId loaded (w.store.invoiceActive documentId)))
  | _ => none

/-- The end of a job; the lock is taken only for an attachment. -/
def SessionWorld.endJob (i : ℕ) (succeeded : Bool) : Option SessionWorld :=
  match w.sessions i with
  | some (.extracting documentId loaded active) =>
    if active = true ∧ w.lock ≠ none then none
    else if succeeded = true then
      if (w.world.db.currentExtraction documentId).isSome then some (w.work i (w.store.jobSucceeded documentId active))
      else none
    else some (w.work i (w.store.jobFailed documentId loaded active))
  | _ => none

/-- `record_failure` of a job that will be tried again. -/
def SessionWorld.retryJob (i : ℕ) : Option SessionWorld :=
  match w.sessions i with
  | some (.job documentId loaded) => some (w.work i (w.store.setJob documentId loaded .queued))
  | _ => none

/-- The end of a supporting extraction, under the lock. -/
def SessionWorld.endSupport (i : ℕ) (r : SupportingRunRow) (outcome : SupportOutcome) : Option SessionWorld :=
  match w.sessions i with
  | some (.supporting d) =>
    if r.documentId = d.documentId ∧ r.role = d.role then some (w.work i (w.store.afterSupport d r outcome)) else none
  | _ => none

/-- `match` up to its call of the matching service: it has the lock, and keeps it. -/
def SessionWorld.plan (i : ℕ) (c : CaseMatchCommand) : Option SessionWorld :=
  match w.sessions i with
  | some _ => none
  | none =>
    match w.store.planMatch E w.world.db c with
    | .ok (.call context) => some { w.enter i (.planned c w.store.case context) with lock := some i }
    | _ => some w

/-- The matching service commits, and the lock of the case is gone. -/
def SessionWorld.call (i : ℕ) (fresh : FreshIds) (rolledBack : Bool) : Option SessionWorld :=
  match w.sessions i with
  | some (.planned c row context) =>
    match E.callMatch w.world.db fresh context with
    | .error _ => some (w.leave i)
    | .ok r =>
      -- a new run was not rolled back
      if rolledBack = true ∧ r.created = true then none
      else (w.world.nextService E.matching (context.call fresh)).map fun world =>
        { (w.leave i).enter i (.called c (if rolledBack then none else some row) context r.run) with world := world }
  | _ => none

def SessionWorld.next (a : SessionAct) : Option SessionWorld :=
  match a with
  | .service b => (w.world.nextService E.matching b).map fun world => { w with world := world }
  | .load i _ | .readOrder i _ | .readReceipt i _ _ | .getJob i _ | .readSupport i _ => w.begin E i a
  | .ingest i documentId rolledBack => w.ingest i documentId rolledBack
  | .plan i c => if w.lock = none then w.plan E i c else none
  | .call i fresh rolledBack => w.call E i fresh rolledBack
  | .attach i attachmentId => if w.lock = none then w.attach E i attachmentId else none
  | .confirm i ids => if w.lock = none then w.confirm E i ids else none
  | .finish i => if w.lock = none then w.finish E i else none
  | .startJob i => w.startJob i
  | .readJob i => w.readJob i
  | .endJob i succeeded => w.endJob i succeeded
  | .retryJob i => w.retryJob i
  | .endSupport i r outcome => if w.lock = none then w.endSupport i r outcome else none
  | .abort i => some (w.leave i)

end

def SessionAct.session : SessionAct → Option ℕ
  | .service _ => none
  | .load i _ | .ingest i _ _ | .attach i _ | .readOrder i _ | .readReceipt i _ _ | .confirm i _ => some i
  | .plan i _ | .call i _ _ | .finish i | .getJob i _ | .startJob i | .readJob i | .endJob i _ | .retryJob i => some i
  | .readSupport i _ | .endSupport i _ _ | .abort i => some i

/-- The rows of the case are as before; an upload may have been added, or a job started. -/
structure SameCase (s s' : CaseStore) : Prop where
  case : s'.case = s.case
  documents : s'.documents = s.documents
  confirmations : s'.confirmations = s.confirmations
  contexts : s'.contexts = s.contexts
  uploads : s'.uploads = s.uploads ∨
    (∃ u, u.id ∉ s.uploads.map (·.id) ∧ u.jobStatus = .queued ∧ s'.uploads = s.uploads ++ [u]) ∨
    ∃ documentId loaded, s'.uploads = s.uploads.map (Document.withJob documentId loaded .processing)

/-- The attachment a session confirms, and the type of the record it makes. -/
def CaseSession.confirming : CaseSession → Option (Uuid × CanonicalRecordType)
  | .confirmingOrder _ d => some (d.id, .purchaseOrder)
  | .confirmingReceipt _ d => some (d.id, .goodsReceipt)
  | _ => none

/-- What a session has read when it enters a phase; `s` is the case after it. -/
inductive Enters (w : SessionWorld) (s : CaseStore) (i : ℕ) : CaseSession → Prop
  | loaded {c : AttachCommand} : w.store.case.version = c.expectedCaseVersion → Enters w s i (.loaded c w.store.case)
  | ingested {c : AttachCommand} {row : PayableCase} {row' : Option PayableCase} {jobDone : Bool} {documentId : Uuid} :
      w.sessions i = some (.loaded c row) → (∀ r ∈ row', r = row) →
      (∃ u ∈ s.uploads, u.id = documentId ∧ u.sha256 = c.sha256) →
      (jobDone = true → w.store.jobDone documentId = true) → Enters w s i (.ingested c row' jobDone documentId)
  | confirmingOrder {c : ConfirmCommand PurchaseOrderValues} {d : CaseDocument} :
      w.store.active .purchaseOrder = some d → Enters w s i (.confirmingOrder c d)
  | confirmingReceipt {c : ConfirmCommand ReceiptValues} {documentId : Uuid} {d : CaseDocument} :
      w.store.receiptAttachment documentId = some d → Enters w s i (.confirmingReceipt c d)
  | planned {c : CaseMatchCommand} {context : CaseContext} : w.store.case.version = c.expectedCaseVersion →
      Enters w s i (.planned c w.store.case context)
  | job {documentId : Uuid} {loaded : JobStatus} : loaded ≠ .succeeded → Enters w s i (.job documentId loaded)
  | extracting {documentId : Uuid} {loaded : JobStatus} : w.sessions i = some (.job documentId loaded) →
      Enters w s i (.extracting documentId loaded (w.store.invoiceActive documentId))
  | supporting {d : CaseDocument} : d ∈ w.store.documents → d.role ≠ .invoice → Enters w s i (.supporting d)

/-- The matching service has returned to a session. -/
inductive CallsMatch (E : CaseEnv) (w : SessionWorld) (i : ℕ) (world : MatchWorld) : CaseSession → Prop
  | intro {c : CaseMatchCommand} {row : PayableCase} {row' : Option PayableCase} {context : CaseContext}
      {fresh : FreshIds} {r : MatchServiceResult} : w.sessions i = some (.planned c row context) →
      E.callMatch w.world.db fresh context = .ok r → w.world.nextService E.matching (context.call fresh) = some world →
      (∀ r ∈ row', r = row) → CallsMatch E w i world (.called c row' context r.run)

/-- A worker leaves the row, or writes a new one. -/
structure Works (s s' : CaseStore) : Prop where
  documents : s'.documents = s.documents
  confirmations : s'.confirmations = s.confirmations
  contexts : s'.contexts = s.contexts
  uploads : List.Forall₂ (fun u u' => u'.id = u.id ∧ u'.sha256 = u.sha256) s.uploads s'.uploads
  case : s'.case = s.case ∨ s'.case.version = s.case.version + 1 ∧
    (s'.case.status = .needsConfirmation ∨ s'.case.status = .failed)

inductive WorkerEnds (w : SessionWorld) (a : SessionAct) (i : ℕ) : CaseSession → CaseStore → Prop
  | succeeded {documentId : Uuid} {loaded : JobStatus} {active : Bool} : a = .endJob i true →
      (w.world.db.currentExtraction documentId).isSome →
      WorkerEnds w a i (.extracting documentId loaded active) (w.store.jobSucceeded documentId active)
  | failed {documentId : Uuid} {loaded : JobStatus} {active : Bool} : a = .endJob i false →
      WorkerEnds w a i (.extracting documentId loaded active) (w.store.jobFailed documentId loaded active)
  | retried {documentId : Uuid} {loaded : JobStatus} : a = .retryJob i →
      WorkerEnds w a i (.job documentId loaded) (w.store.setJob documentId loaded .queued)
  | support {d : CaseDocument} {r : SupportingRunRow} {outcome : SupportOutcome} : a = .endSupport i r outcome →
      WorkerEnds w a i (.supporting d) (w.store.afterSupport d r outcome)

inductive SessionMoves (E : CaseEnv) (w : SessionWorld) (a : SessionAct) : SessionWorld → Prop
  | service {b : ServiceAct} {world : MatchWorld} : w.world.nextService E.matching b = some world →
      SessionMoves E w a { w with world := world }
  | refused : SessionMoves E w a w
  | enter {i : ℕ} {phase : CaseSession} {s : CaseStore} {lock : Option ℕ} : SameCase w.store s → Enters w s i phase →
      a.session = some i →
      SessionMoves E w a { w.enter i phase with
        store := s
        lock := lock }
  | leave {i : ℕ} : a.session = some i → SessionMoves E w a (w.leave i)
  | called {i : ℕ} {phase : CaseSession} {world : MatchWorld} : CallsMatch E w i world phase → a.session = some i →
      SessionMoves E w a { (w.leave i).enter i phase with world := world }
  | work {i : ℕ} {phase : CaseSession} {s : CaseStore} : w.sessions i = some phase → WorkerEnds w a i phase s →
      SessionMoves E w a (w.work i s)
  | attach {i : ℕ} {attachmentId documentId : Uuid} {c : AttachCommand} {row : Option PayableCase} {jobDone : Bool}
      {s : CaseStore} : a = .attach i attachmentId → w.sessions i = some (.ingested c row jobDone documentId) →
      w.store.attachLocked E w.world.db c (row.getD w.store.case) jobDone documentId attachmentId = .ok s →
      SessionMoves E w a (w.commit i s (some c.expectedCaseVersion))
  | confirm {i : ℕ} {phase : CaseSession} {p : CaseConfirmation} {s : CaseStore} {b : ServiceAct} {world : MatchWorld}
      {version : ℕ} : w.sessions i = some phase → (p.caseDocumentId, p.canonicalRecordType) ∈ phase.confirming →
      version = w.store.case.version → Confirmed w.store p s → w.world.nextService E.matching b = some world →
      a.session = some i → SessionMoves E w a { w.commit i s (some version) with world := world }
  | finish {i : ℕ} {c : CaseMatchCommand} {row : Option PayableCase} {context : CaseContext} {run : MatchRun}
      {s : CaseStore} : a = .finish i → w.sessions i = some (.called c row context run) →
      w.store.finishMatch E w.world.db c (row.getD w.store.case) context run = .ok s →
      SessionMoves E w a (w.commit i s (some c.expectedCaseVersion))

section

variable {E : CaseEnv} {w w' : SessionWorld} {a : SessionAct} {i : ℕ} {s : CaseStore} {d : CaseDocument}

theorem ingest_sameCase {sha256 : String} {newId : Uuid}
    (hfresh : s.uploads.find? (·.sha256 = sha256) = none → newId ∉ s.uploads.map (·.id)) :
    SameCase s (s.ingest sha256 newId).1 := by
  obtain ⟨hdocuments, hconfirmations, hcontexts, hcase⟩ := ingest_rows s sha256 newId
  refine ⟨hcase, hdocuments, hconfirmations, hcontexts, ?_⟩
  unfold CaseStore.ingest
  split
  · exact .inl rfl
  · next hnone => exact .inr (.inl ⟨_, hfresh hnone, rfl, rfl⟩)

theorem mem_ingest (s : CaseStore) (sha256 : String) (newId : Uuid) :
    ∃ u ∈ (s.ingest sha256 newId).1.uploads, u.id = (s.ingest sha256 newId).2 ∧ u.sha256 = sha256 := by
  unfold CaseStore.ingest
  split
  · next u hu => exact ⟨u, List.mem_of_find?_eq_some hu, rfl, by simpa using List.find?_some hu⟩
  · exact ⟨_, List.mem_append_right _ (List.mem_singleton_self _), rfl, rfl⟩

theorem jobDone_ingest {sha256 : String} {newId : Uuid}
    (h : (s.ingest sha256 newId).1.jobDone (s.ingest sha256 newId).2 = true) :
    s.jobDone (s.ingest sha256 newId).2 = true := by
  unfold CaseStore.ingest at h ⊢
  split at h
  · exact h
  · simp only [CaseStore.jobDone, List.find?_append] at h ⊢
    cases hfind : s.uploads.find? (·.id = newId) with
    | some u =>
      rw [hfind, Option.some_or] at h
      exact h
    | none =>
      rw [hfind, Option.none_or] at h
      simp at h

theorem version_of_confirmable {V : Type} {c : ConfirmCommand V} {corrected : Json → ConfirmCommand V → List String}
    {found : SupportingRunRow × List String} (h : s.confirmable d c corrected = .ok found) :
    c.expectedCaseVersion = s.case.version := by
  unfold CaseStore.confirmable at h
  split at h
  · cases h
  · next hversion => exact (not_ne_iff.1 hversion).symm

theorem version_of_confirmPo {c : ConfirmCommand PurchaseOrderValues} {ids : ConfirmIds} {found : CaseStore × PurchaseOrder}
    (h : s.confirmPo E d c ids = .ok found) : c.expectedCaseVersion = s.case.version := by
  unfold CaseStore.confirmPo at h
  split at h
  · cases h
  · next hconfirmable => exact version_of_confirmable hconfirmable

theorem version_of_confirmReceipt {db : Tables} {c : ConfirmCommand ReceiptValues} {ids : ConfirmIds}
    {found : CaseStore × GoodsReceipt} (h : s.confirmReceipt E d db c ids = .ok found) :
    c.expectedCaseVersion = s.case.version := by
  unfold CaseStore.confirmReceipt at h
  split at h
  · cases h
  · next hconfirmable => exact version_of_confirmable hconfirmable

theorem setJobs (documentId : Uuid) (loaded status : JobStatus) (us : List Document) :
    List.Forall₂ (fun u u' => u'.id = u.id ∧ u'.sha256 = u.sha256) us
      (us.map (Document.withJob documentId loaded status)) := by
  rw [List.forall₂_map_right_iff]
  refine List.forall₂_same.2 fun d _ => ?_
  unfold Document.withJob
  split_ifs
  · exact ⟨rfl, rfl⟩
  · exact ⟨rfl, rfl⟩

theorem sameUploads (us : List Document) :
    List.Forall₂ (fun u u' => u'.id = u.id ∧ u'.sha256 = u.sha256) us us :=
  List.forall₂_same.2 fun _ _ => ⟨rfl, rfl⟩

theorem jobSucceeded_works (documentId : Uuid) (active : Bool) : Works s (s.jobSucceeded documentId active) := by
  unfold CaseStore.jobSucceeded
  dsimp only
  split_ifs
  · exact ⟨rfl, rfl, rfl, setJobs _ _ _ _, .inr ⟨rfl, .inl rfl⟩⟩
  · exact ⟨rfl, rfl, rfl, setJobs _ _ _ _, .inl rfl⟩

theorem jobFailed_works (documentId : Uuid) (loaded : JobStatus) (active : Bool) :
    Works s (s.jobFailed documentId loaded active) := by
  unfold CaseStore.jobFailed
  dsimp only
  split_ifs
  · exact ⟨rfl, rfl, rfl, setJobs _ _ _ _, .inr ⟨rfl, .inr rfl⟩⟩
  · exact ⟨rfl, rfl, rfl, setJobs _ _ _ _, .inl rfl⟩

theorem afterSupport_works (d : CaseDocument) (r : SupportingRunRow) (outcome : SupportOutcome) :
    Works s (s.afterSupport d r outcome) := by
  cases outcome with
  | succeeded =>
    simp only [CaseStore.afterSupport, CaseStore.supportSucceeded]
    split_ifs
    · exact ⟨rfl, rfl, rfl, sameUploads _, .inr ⟨rfl, .inl rfl⟩⟩
    · exact ⟨rfl, rfl, rfl, sameUploads _, .inl rfl⟩
  | failed => exact ⟨rfl, rfl, rfl, sameUploads _, .inr ⟨rfl, .inr rfl⟩⟩
  | marked =>
    simp only [CaseStore.afterSupport, CaseStore.supportMarked]
    split_ifs
    · exact ⟨rfl, rfl, rfl, sameUploads _, .inr ⟨rfl, .inr rfl⟩⟩
    · exact ⟨rfl, rfl, rfl, sameUploads _, .inl rfl⟩

theorem WorkerEnds.works {phase : CaseSession} (h : WorkerEnds w a i phase s) : Works w.store s := by
  cases h with
  | succeeded => exact jobSucceeded_works _ _
  | failed => exact jobFailed_works _ _ _
  | retried => exact ⟨rfl, rfl, rfl, setJobs _ _ _ _, .inl rfl⟩
  | support => exact afterSupport_works _ _ _

theorem start_enters {phase : CaseSession} (h : w.start E a = some phase) : Enters w s i phase := by
  cases a with
  | load j c =>
    simp only [SessionWorld.start] at h
    split at h
    · split_ifs at h with hversion
      exact Option.some.inj h ▸ .loaded hversion
    · cases h
  | readOrder j c =>
    simp only [SessionWorld.start] at h
    split at h
    · cases h
    · next d hd =>
      split at h
      · exact Option.some.inj h ▸ .confirmingOrder (activeAttachment_ok hd)
      · cases h
  | readReceipt j documentId c =>
    simp only [SessionWorld.start] at h
    split at h
    · cases h
    · next d hd =>
      split_ifs at h
      split at h
      · exact Option.some.inj h ▸ .confirmingReceipt hd
      · cases h
  | getJob j documentId =>
    simp only [SessionWorld.start] at h
    split at h
    · cases h
    · split_ifs at h with hstatus
      exact Option.some.inj h ▸ .job hstatus
  | readSupport j attachmentId =>
    simp only [SessionWorld.start] at h
    split at h
    · cases h
    · next d hd =>
      split_ifs at h with hrole
      exact Option.some.inj h ▸ .supporting (List.mem_of_find?_eq_some hd) hrole
  | _ => cases h

theorem moves_begin {b : SessionAct} (ha : a.session = some i) (h : w.begin E i b = some w') : SessionMoves E w a w' := by
  unfold SessionWorld.begin at h
  split at h
  · cases h
  · obtain rfl := Option.some.inj h
    cases hstart : w.start E b with
    | none => exact .refused
    | some phase => exact .enter ⟨rfl, rfl, rfl, rfl, .inl rfl⟩ (start_enters hstart) ha

theorem moves_ingest {documentId : Uuid} {rolledBack : Bool} (ha : a.session = some i)
    (h : w.ingest i documentId rolledBack = some w') :
    SessionMoves E w a w' := by
  unfold SessionWorld.ingest at h
  dsimp only at h
  split at h
  · next c row hi =>
    split_ifs at h with hcond hrolled
    · refine Option.some.inj h ▸ .enter (ingest_sameCase fun hnone hmem => ?_)
        (.ingested hi (by simp) (mem_ingest _ _ _) jobDone_ingest) ha
      exact hcond ⟨hnone, .inr hmem⟩
    · refine Option.some.inj h ▸ .enter (ingest_sameCase fun hnone hmem => ?_)
        (.ingested hi (by simp) (mem_ingest _ _ _) jobDone_ingest) ha
      exact hcond ⟨hnone, .inr hmem⟩
  · cases h

theorem moves_plan {c : CaseMatchCommand} (ha : a.session = some i) (h : w.plan E i c = some w') : SessionMoves E w a w' := by
  unfold SessionWorld.plan at h
  split at h
  · cases h
  · split at h
    · next context hplan =>
      exact Option.some.inj h ▸ .enter ⟨rfl, rfl, rfl, rfl, .inl rfl⟩ (.planned (plan_call hplan).2) ha
    · exact Option.some.inj h ▸ .refused

theorem moves_call {fresh : FreshIds} {rolledBack : Bool} (ha : a.session = some i)
    (h : w.call E i fresh rolledBack = some w') :
    SessionMoves E w a w' := by
  unfold SessionWorld.call at h
  split at h
  · next c row context hi =>
    split at h
    · exact Option.some.inj h ▸ .leave ha
    · next r hcall =>
      split_ifs at h
      · obtain ⟨world, hworld, rfl⟩ := Option.map_eq_some_iff.1 h
        exact .called (.intro hi hcall hworld (by simp)) ha
      · obtain ⟨world, hworld, rfl⟩ := Option.map_eq_some_iff.1 h
        exact .called (.intro hi hcall hworld (by simp)) ha
  · cases h

theorem moves_attach_session {attachmentId : Uuid} (ha : a = .attach i attachmentId)
    (h : w.attach E i attachmentId = some w') : SessionMoves E w a w' := by
  unfold SessionWorld.attach at h
  split at h
  · next c row jobDone documentId hi =>
    split at h
    · next s hs => exact Option.some.inj h ▸ .attach ha hi hs
    · exact Option.some.inj h ▸ .leave (by rw [ha]; rfl)
  · cases h

theorem moves_confirm {ids : ConfirmIds} (ha : a.session = some i) (h : w.confirm E i ids = some w') : SessionMoves E w a w' := by
  unfold SessionWorld.confirm at h
  split at h
  · next c d hi =>
    split at h
    · next s po hs =>
      obtain ⟨world, hworld, rfl⟩ := Option.map_eq_some_iff.1 h
      obtain ⟨p, hid, htype, -, hconfirmed⟩ := confirmPo_ok hs
      exact .confirm hi (by rw [hid, htype]; rfl) (version_of_confirmPo hs) hconfirmed hworld ha
    · exact Option.some.inj h ▸ .leave ha
  · next c d hi =>
    split at h
    · next s r hs =>
      obtain ⟨world, hworld, rfl⟩ := Option.map_eq_some_iff.1 h
      obtain ⟨po, p, q, hid, htype, -, -, -, -, -, hconfirmed⟩ := confirmReceipt_ok hs
      exact .confirm hi (by rw [hid, htype]; rfl) (version_of_confirmReceipt hs) hconfirmed hworld ha
    · exact Option.some.inj h ▸ .leave ha
  · cases h

theorem moves_finish (ha : a = .finish i) (h : w.finish E i = some w') : SessionMoves E w a w' := by
  unfold SessionWorld.finish at h
  split at h
  · next c row context run hi =>
    split at h
    · next s hs => exact Option.some.inj h ▸ .finish ha hi hs
    · exact Option.some.inj h ▸ .leave (by rw [ha]; rfl)
  · cases h

theorem ends_of_endJob {succeeded : Bool} (h : w.endJob i succeeded = some w') : ∃ phase s, w.sessions i = some phase ∧
    WorkerEnds w (.endJob i succeeded) i phase s ∧ w' = w.work i s := by
  unfold SessionWorld.endJob at h
  split at h
  · next documentId loaded active hi =>
    split_ifs at h with _ hsucceeded hextracted
    · exact ⟨_, _, hi, .succeeded (by rw [hsucceeded]) hextracted, (Option.some.inj h).symm⟩
    · exact ⟨_, _, hi, .failed (by rw [Bool.eq_false_iff.2 hsucceeded]), (Option.some.inj h).symm⟩
  · cases h

theorem moves_startJob (ha : a.session = some i) (h : w.startJob i = some w') : SessionMoves E w a w' := by
  unfold SessionWorld.startJob at h
  split at h
  · next documentId loaded hi =>
    exact Option.some.inj h ▸ .enter ⟨rfl, rfl, rfl, rfl, .inr (.inr ⟨documentId, loaded, rfl⟩)⟩ (.job (by simp)) ha
  · cases h

theorem moves_readJob (ha : a.session = some i) (h : w.readJob i = some w') : SessionMoves E w a w' := by
  unfold SessionWorld.readJob at h
  split at h
  · next documentId loaded hi =>
    exact Option.some.inj h ▸ .enter ⟨rfl, rfl, rfl, rfl, .inl rfl⟩ (.extracting hi) ha
  · cases h

theorem moves_retryJob (ha : a = .retryJob i) (h : w.retryJob i = some w') : SessionMoves E w a w' := by
  unfold SessionWorld.retryJob at h
  split at h
  · next documentId loaded hi => exact Option.some.inj h ▸ .work hi (.retried ha)
  · cases h

theorem ends_of_endSupport {r : SupportingRunRow} {outcome : SupportOutcome} (h : w.endSupport i r outcome = some w') :
    ∃ phase s, w.sessions i = some phase ∧ WorkerEnds w (.endSupport i r outcome) i phase s ∧ w' = w.work i s := by
  unfold SessionWorld.endSupport at h
  split at h
  · next d hi =>
    split_ifs at h
    exact ⟨_, _, hi, .support rfl, (Option.some.inj h).symm⟩
  · cases h

theorem sessionMoves_of_next (h : w.next E a = some w') : SessionMoves E w a w' := by
  cases a with
  | service b =>
    obtain ⟨world, hworld, rfl⟩ := Option.map_eq_some_iff.1 h
    exact .service hworld
  | ingest i documentId rolledBack => exact moves_ingest rfl h
  | call i fresh rolledBack => exact moves_call rfl h
  | abort i => exact Option.some.inj h ▸ .leave rfl
  | attach i attachmentId =>
    simp only [SessionWorld.next] at h
    split_ifs at h
    exact moves_attach_session rfl h
  | confirm i ids =>
    simp only [SessionWorld.next] at h
    split_ifs at h
    exact moves_confirm rfl h
  | plan i c =>
    simp only [SessionWorld.next] at h
    split_ifs at h
    exact moves_plan rfl h
  | finish i =>
    simp only [SessionWorld.next] at h
    split_ifs at h
    exact moves_finish rfl h
  | startJob i => exact moves_startJob rfl h
  | readJob i => exact moves_readJob rfl h
  | endJob i succeeded =>
    obtain ⟨phase, s, hi, hends, rfl⟩ := ends_of_endJob h
    exact .work hi hends
  | retryJob i => exact moves_retryJob rfl h
  | endSupport i r outcome =>
    simp only [SessionWorld.next] at h
    split_ifs at h
    obtain ⟨phase, s, hi, hends, rfl⟩ := ends_of_endSupport h
    exact .work hi hends
  | _ => exact moves_begin rfl h

end

section

variable {E : CaseEnv} {w w' : SessionWorld} {a : SessionAct} {i j : ℕ} {phase p : CaseSession}

theorem sessions_leave (h : (w.leave i).sessions j = some p) : w.sessions j = some p := by
  have h : Function.update w.sessions i none j = some p := h
  by_cases hji : j = i
  · subst hji
    rw [Function.update_self] at h
    cases h
  · rwa [Function.update_of_ne hji] at h

theorem sessions_enter (h : (w.enter i phase).sessions j = some p) : w.sessions j = some p ∨ j = i ∧ p = phase := by
  have h : Function.update w.sessions i (some phase) j = some p := h
  by_cases hji : j = i
  · subst hji
    rw [Function.update_self] at h
    exact .inr ⟨rfl, (Option.some.inj h).symm⟩
  · rw [Function.update_of_ne hji] at h
    exact .inl h

theorem session_cases (h : SessionMoves E w a w') (hj : w'.sessions j = some p) :
    w.sessions j = some p ∨ Enters w w'.store j p ∨ CallsMatch E w j w'.world p := by
  cases h with
  | service => exact .inl hj
  | refused => exact .inl hj
  | leave => exact .inl (sessions_leave hj)
  | enter _ henters =>
    rcases sessions_enter hj with hold | ⟨rfl, rfl⟩
    · exact .inl hold
    · exact .inr (.inl henters)
  | called hcalls =>
    rcases sessions_enter hj with hold | ⟨rfl, rfl⟩
    · exact .inl (sessions_leave hold)
    · exact .inr (.inr hcalls)
  | work =>
    unfold SessionWorld.work at hj
    split_ifs at hj
    · exact .inl (sessions_leave hj)
    · exact .inl (sessions_leave hj)
  | attach => exact .inl (sessions_leave hj)
  | confirm => exact .inl (sessions_leave hj)
  | finish => exact .inl (sessions_leave hj)

theorem sessions_of_moves (h : SessionMoves E w a w') : w'.sessions = w.sessions ∨
    ∃ i phase, a.session = some i ∧ w'.sessions = Function.update w.sessions i phase := by
  cases h with
  | service => exact .inl rfl
  | refused => exact .inl rfl
  | enter _ _ ha => exact .inr ⟨_, _, ha, rfl⟩
  | leave ha => exact .inr ⟨_, _, ha, rfl⟩
  | called _ ha => exact .inr ⟨_, _, ha, Function.update_idem ..⟩
  | @work i phase s _ hends =>
    refine .inr ⟨i, none, ?_, ?_⟩
    · cases hends with
      | succeeded ha => rw [ha]; rfl
      | failed ha => rw [ha]; rfl
      | retried ha => rw [ha]; rfl
      | support ha => rw [ha]; rfl
    · unfold SessionWorld.work
      split_ifs
      · rfl
      · rfl
  | attach ha => exact .inr ⟨_, _, by rw [ha]; rfl, rfl⟩
  | confirm _ _ _ _ _ ha => exact .inr ⟨_, _, ha, rfl⟩
  | finish ha => exact .inr ⟨_, _, by rw [ha]; rfl, rfl⟩

end

def CaseSession.row : CaseSession → Option PayableCase
  | .loaded _ row | .planned _ row _ => some row
  | .ingested _ row _ _ | .called _ row _ _ => row
  | _ => none

/-- The version the command of a session expects. -/
def CaseSession.expectedVersion : CaseSession → Option ℕ
  | .loaded c _ | .ingested c _ _ _ => some c.expectedCaseVersion
  | .planned c _ _ | .called c _ _ _ => some c.expectedCaseVersion
  | _ => none

/-- The version an `attach` or a `match` relies on when it takes the lock: the one of the row `attach` has loaded,
the one `match` expects. -/
def SessionWorld.reliesOn (w : SessionWorld) : SessionAct → Option ℕ
  | .attach i _ => (w.sessions i).bind fun phase => phase.row.map (·.version)
  | .finish i => (w.sessions i).bind CaseSession.expectedVersion
  | _ => none

/-- The row of the case still has the version the step relies on. -/
def SessionWorld.Unchanged (w : SessionWorld) (a : SessionAct) : Prop :=
  ∀ version ∈ w.reliesOn a, w.store.case.version = version

instance (w : SessionWorld) (a : SessionAct) : Decidable (w.Unchanged a) :=
  inferInstanceAs (Decidable (∀ version ∈ w.reliesOn a, _))

/-- One mutation for each expected version, each an increment by one, and no increment lost. -/
structure SessionWorld.OneAtATime (w : SessionWorld) : Prop where
  once : (w.commits.filterMap (·.expected)).Nodup
  byOne : ∀ k ∈ w.commits, k.after = k.before + 1
  kept : w.store.case.version = 1 + w.commits.length

/-- Every change of the row so far was made on the version before it, and by one. -/
structure CommitsInv (w : SessionWorld) : Prop where
  befores : w.commits.map (·.before) = List.range' 1 w.commits.length
  afters : ∀ k ∈ w.commits, k.after = k.before + 1
  expected : ∀ k ∈ w.commits, ∀ v ∈ k.expected, v = k.before
  version : w.store.case.version = 1 + w.commits.length

/-- The row a session has loaded has the version its command expects. -/
structure VersionsInv (w : SessionWorld) : Prop where
  commits : CommitsInv w
  sessions : ∀ i phase, w.sessions i = some phase → ∀ row ∈ phase.row, ∀ v ∈ phase.expectedVersion, row.version = v

section

variable {E : CaseEnv} {w w' : SessionWorld} {a : SessionAct} {i : ℕ}

theorem CommitsInv.oneAtATime (h : CommitsInv w) : w.OneAtATime := by
  refine ⟨?_, h.afters, h.version⟩
  have hnodup : (w.commits.map (·.before)).Nodup := by
    rw [h.befores]
    exact List.nodup_range'
  rw [List.Nodup, List.pairwise_map] at hnodup
  rw [List.Nodup, List.pairwise_filterMap]
  refine hnodup.imp_of_mem fun {k k'} hk hk' hne v hv v' hv' heq => hne ?_
  rw [← h.expected k hk v hv, ← h.expected k' hk' v' hv', heq]

theorem CommitsInv.congr (h : CommitsInv w) (hcommits : w'.commits = w.commits)
    (hcase : w'.store.case = w.store.case) : CommitsInv w' := by
  obtain ⟨hbefores, hafters, hexpected, hversion⟩ := h
  refine ⟨?_, ?_, ?_, ?_⟩
  all_goals simp only [hcommits, hcase]
  all_goals assumption

theorem CommitsInv.snoc (h : CommitsInv w) {expected : Option ℕ} {after : ℕ}
    (hcommits : w'.commits = w.commits ++ [⟨expected, w.store.case.version, after⟩])
    (hversion : w'.store.case.version = after) (hafter : after = w.store.case.version + 1)
    (hexpected : ∀ v ∈ expected, v = w.store.case.version) : CommitsInv w' := by
  have hmem : ∀ k ∈ w'.commits, k ∈ w.commits ∨ k = ⟨expected, w.store.case.version, after⟩ := by
    intro k hk
    rw [hcommits] at hk
    exact (List.mem_append.1 hk).imp_right List.mem_singleton.1
  refine ⟨?_, fun k hk => ?_, fun k hk => ?_, ?_⟩
  · simp only [hcommits, List.map_append, List.map_singleton, h.befores, h.version, List.length_append,
      List.length_singleton, List.range'_concat, Nat.one_mul]
  · rcases hmem k hk with hold | rfl
    · exact h.afters k hold
    · exact hafter
  · rcases hmem k hk with hold | rfl
    · exact h.expected k hold
    · exact hexpected
  · rw [hversion, hafter, h.version, hcommits, List.length_append, List.length_singleton]
    omega

theorem Enters.versions {s : CaseStore} {phase : CaseSession} (h : Enters w s i phase) (hinv : VersionsInv w) :
    ∀ row ∈ phase.row, ∀ v ∈ phase.expectedVersion, row.version = v := by
  intro row hrow v hv
  cases h with
  | loaded hversion =>
    obtain rfl := Option.some.inj hrow
    exact hversion.trans (Option.some.inj hv)
  | planned hversion =>
    obtain rfl := Option.some.inj hrow
    exact hversion.trans (Option.some.inj hv)
  | ingested hi hsame =>
    obtain rfl := hsame row hrow
    exact hinv.sessions i _ hi _ rfl v hv
  | _ => cases hrow

theorem VersionsInv.commits_step (h : VersionsInv w) (hC : w.Unchanged a) (hstep : SessionMoves E w a w') :
    CommitsInv w' := by
  cases hstep with
  | service => exact h.commits.congr rfl rfl
  | refused => exact h.commits
  | leave => exact h.commits.congr rfl rfl
  | enter hsame => exact h.commits.congr rfl hsame.case
  | called => exact h.commits.congr rfl rfl
  | work _ hends =>
    unfold SessionWorld.work
    split_ifs with hcase
    · exact h.commits.congr rfl hcase
    · refine h.commits.snoc rfl rfl (hends.works.case.resolve_left hcase).1 fun v hv => ?_
      cases hv
  | @attach i attachmentId documentId c row jobDone s ha hi hs =>
    obtain ⟨hloaded, documents, status, -, -, -, rfl⟩ := attachLocked_ok hs
    have hrow : (row.getD w.store.case).version = w.store.case.version := by
      cases row with
      | none => rfl
      | some r => exact (hC r.version (by rw [ha, SessionWorld.reliesOn, hi]; rfl)).symm
    refine h.commits.snoc rfl rfl ?_ fun v hv => ?_
    · rw [← hrow]
      rfl
    · rw [← hrow, hloaded, Option.some.inj hv]
  | confirm _ _ hversion hconfirmed =>
    refine h.commits.snoc rfl rfl (by rw [hconfirmed.store]) fun v hv => ?_
    exact (Option.some.inj hv).symm.trans hversion
  | @finish i c row context run s ha hi hs =>
    obtain ⟨-, status, -, rfl⟩ := finishMatch_ok hs
    have hversion : w.store.case.version = c.expectedCaseVersion :=
      hC _ (by rw [ha, SessionWorld.reliesOn, hi]; rfl)
    have hrow : (row.getD w.store.case).version = w.store.case.version := by
      cases row with
      | none => rfl
      | some r => exact (h.sessions i _ hi r rfl _ rfl).trans hversion.symm
    refine h.commits.snoc rfl rfl ?_ fun v hv => ?_
    · rw [← hrow]
      rfl
    · exact (Option.some.inj hv).symm.trans hversion.symm

theorem VersionsInv.step (h : VersionsInv w) (hC : w.Unchanged a) (hstep : SessionMoves E w a w') : VersionsInv w' := by
  refine ⟨h.commits_step hC hstep, fun j p hj => ?_⟩
  rcases session_cases hstep hj with hold | henters | hcalls
  · exact h.sessions j p hold
  · exact henters.versions h
  · obtain ⟨hi, -, -, hsame⟩ := hcalls
    intro row hrow v hv
    obtain rfl := hsame row hrow
    exact h.sessions j _ hi _ rfl v hv

end

/-- As long as `attach` and `match` commit on the version their command expects: over every interleaving of
commands and workers, one mutation at most succeeds for a version, each increases the stored version by one, and
no increment is overwritten. -/
theorem commits_oneAtATime (E : CaseEnv) {acts : List SessionAct} {w : SessionWorld}
    (h : Steps (restrict SessionWorld.Unchanged (SessionWorld.next E)) .initial acts w) : w.OneAtATime := by
  have hinv : VersionsInv w := by
    refine h.invariant (fun s a t hs hn => ?_) ⟨⟨rfl, ?_, ?_, rfl⟩, ?_⟩
    · obtain ⟨hC, hn⟩ := restrict_eq_some.1 hn
      exact hs.step hC (sessionMoves_of_next hn)
    · intro k hk
      cases hk
    · intro k hk
      cases hk
    · intro i phase hphase
      cases hphase
  exact hinv.commits.oneAtATime

/-- A command with nothing in between, in session `0`. -/
def CaseAct.alone : CaseAct → List SessionAct
  | .service a => [.service a]
  | .attach c documentId attachmentId => [.load 0 c, .ingest 0 documentId false, .attach 0 attachmentId]
  | .confirmPurchaseOrder c ids => [.readOrder 0 c, .confirm 0 ids]
  | .confirmReceipt documentId c ids => [.readReceipt 0 documentId c, .confirm 0 ids]
  | .matchCase c fresh => [.plan 0 c, .call 0 fresh false, .finish 0]
  | .jobSucceeded documentId => [.getJob 0 documentId, .startJob 0, .readJob 0, .endJob 0 true]
  | .jobFailed documentId => [.getJob 0 documentId, .readJob 0, .endJob 0 false]
  | .supportSucceeded attachmentId r => [.readSupport 0 attachmentId, .endSupport 0 r .succeeded]
  | .supportFailed attachmentId r => [.readSupport 0 attachmentId, .endSupport 0 r .failed]
  | .supportMarked attachmentId r => [.readSupport 0 attachmentId, .endSupport 0 r .marked]

/-- The tap is billed, ordered, received and matched. -/
def tapSessionActs : List SessionAct :=
  tapCaseActs.flatMap CaseAct.alone ++ CaseAct.alone (.matchCase ⟨9, "match"⟩ (tapFresh 20))

theorem commits_oneAtATime_tap : ∃ w,
    Steps (restrict SessionWorld.Unchanged (SessionWorld.next tapCaseEnv)) .initial tapSessionActs w ∧
    w.store.case = ⟨.matched, 10⟩ ∧ w.OneAtATime := by
  have hexec : (exec (restrict SessionWorld.Unchanged (SessionWorld.next tapCaseEnv)) .initial tapSessionActs).any
      (fun w => w.store.case = ⟨.matched, 10⟩) = true := by
    decide +kernel
  obtain ⟨w, hw, hexec⟩ := (Option.any_eq_true _ _).1 hexec
  exact ⟨w, .of_exec hw, of_decide_eq_true hexec, commits_oneAtATime tapCaseEnv (.of_exec hw)⟩

/-- Session `i` has loaded the row and ingested the document `n`, and has still to attach it. -/
def uploadActs (i n version : ℕ) : List SessionAct :=
  [.load i ⟨.goodsReceipt, "attach " ++ toString n, version, toString n, none⟩, .ingest i (Uuid.ofNat n) false]

/-- Two clients attach a receipt each on version `1`. -/
def twoUploads : List SessionAct :=
  uploadActs 0 100 1 ++ uploadActs 1 200 1 ++ [.attach 0 (Uuid.ofNat 101), .attach 1 (Uuid.ofNat 201)]

/-- Both attachments are committed, and the second increment overwrites the first. -/
theorem twoUploads_not_oneAtATime : ∃ w, Steps (SessionWorld.next tapCaseEnv) .initial twoUploads w ∧
    w.store.documents.length = 2 ∧ w.commits = [⟨some 1, 1, 2⟩, ⟨some 1, 2, 2⟩] ∧ w.store.case.version = 2 ∧
    ¬ w.OneAtATime := by
  have hexec : (exec (SessionWorld.next tapCaseEnv) .initial twoUploads).any (fun w => w.store.documents.length = 2 ∧
      w.commits = [⟨some 1, 1, 2⟩, ⟨some 1, 2, 2⟩] ∧ w.store.case.version = 2) = true := by
    decide +kernel
  obtain ⟨w, hw, hexec⟩ := (Option.any_eq_true _ _).1 hexec
  obtain ⟨hdocuments, hcommits, hversion⟩ := of_decide_eq_true hexec
  refine ⟨w, .of_exec hw, hdocuments, hcommits, hversion, fun h => ?_⟩
  have honce := h.once
  rw [hcommits] at honce
  exact absurd honce (by decide)

end InvoiceOps
