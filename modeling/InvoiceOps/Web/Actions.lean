import InvoiceOps.Cases.Keys
import InvoiceOps.Lib.KeyedRequests

/-! What the console asks of a case (`web/src/lib/idempotency.ts`, `web/src/components/confirmation-editor.tsx` and
`web/src/app/cases/[caseId]/page.tsx`): files to attach, confirmations and matches, each under an idempotency key that is
kept until its success is heard of. The network may lose a request or its answer, deliver it late, and deliver it more than
once; other clients, receipts, matches and workers come in between. -/

namespace InvoiceOps

open StateMachine

/-- `LogicalActionIdempotencyKey`. -/
structure LogicalActionIdempotencyKey (F : Type) where
  fingerprint : Option F
  key : Option String

namespace LogicalActionIdempotencyKey

variable {F : Type} [DecidableEq F]

/-- `keyFor`; `fresh` is what `createKey` would return. -/
def keyFor (holder : LogicalActionIdempotencyKey F) (fingerprint : F) (fresh : String) :
    LogicalActionIdempotencyKey F × String :=
  match holder.key with
  | none => (⟨some fingerprint, some fresh⟩, fresh)
  | some key => if holder.fingerprint ≠ some fingerprint then (⟨some fingerprint, some fresh⟩, fresh) else (holder, key)

/-- `complete`, and `beginNewAction`. -/
def complete : LogicalActionIdempotencyKey F := ⟨none, none⟩

end LogicalActionIdempotencyKey

/-- A file that was picked, by its content. -/
structure PendingAttachment where
  role : DocumentRole
  sha256 : String
  supersedesId : Option Uuid
deriving DecidableEq

/-- A confirmation without its key; the confirmed values are the text that is sent. -/
structure ConfirmationBody where
  expectedCaseVersion : ℕ
  extractionRunId : Uuid
  extractorVersion : String
  confirmed : String
  correctionReason : Option String
deriving DecidableEq

/-- A request without its key. -/
inductive CaseRequest
  | attach (attachment : PendingAttachment) (expectedCaseVersion : ℕ)
  | confirmPurchaseOrder (documentId : Uuid) (body : ConfirmationBody)
  | confirmReceipt (documentId : Uuid) (body : ConfirmationBody)
  | matchCase (expectedCaseVersion : ℕ)
deriving DecidableEq

structure SentRequest where
  console : ℕ
  idempotencyKey : String
  request : CaseRequest

/-- What a request is about: a file is sent again with the version the console knows then. -/
def CaseRequest.action : CaseRequest → CaseRequest
  | .attach attachment _ => .attach attachment 0
  | request => request

/-- The services behind the API, and what it reads of confirmed values, with their dump. -/
structure ApiEnv where
  case : CaseEnv
  readOrder : String → Option (PurchaseOrderValues × Json)
  readReceipt : String → Option (ReceiptValues × Json)

def PendingAttachment.command (a : PendingAttachment) (version : ℕ) (key : String) : AttachCommand where
  role := a.role
  idempotencyKey := key
  expectedCaseVersion := version
  sha256 := a.sha256
  supersedesId := a.supersedesId

def ConfirmationBody.command {V : Type} (b : ConfirmationBody) (values : V × Json) (key : String) : ConfirmCommand V where
  expectedCaseVersion := b.expectedCaseVersion
  extractionRunId := b.extractionRunId
  extractorVersion := b.extractorVersion
  confirmed := values.1
  payload := values.2
  correctionReason := b.correctionReason
  idempotencyKey := key

inductive CaseAnswer
  | attachment (d : CaseDocument)
  | confirmation (c : CaseConfirmation)
  | run (r : MatchRun)

inductive ApiError
  | invalid
  | refused (e : CaseError)

/-- What carrying out a request makes up. -/
structure ActionIds where
  documentId : Uuid
  attachmentId : Uuid
  confirmation : ConfirmIds
  matching : FreshIds

/-- The confirmation a command returns: the one under its key, new or found again. -/
def CaseStore.readBack {α : Type} (s : CaseStore) (key : String) : Except CaseError α → Except ApiError CaseAnswer
  | .error e => .error (.refused e)
  | .ok _ =>
    match s.confirmations.find? (·.idempotencyKey = key) with
    | some c => .ok (.confirmation c)
    | none => .error (.refused .caseNotFound)

def asAnswer {α : Type} (f : α → CaseAnswer) : Except CaseError α → Except ApiError CaseAnswer
  | .error e => .error (.refused e)
  | .ok a => .ok (f a)

section

variable (A : ApiEnv)

/-- What the API does for a request, none where its values are invalid. -/
def ApiEnv.act (q : SentRequest) (ids : ActionIds) : Option CaseAct :=
  match q.request with
  | .attach a version => some (.attach (a.command version q.idempotencyKey) ids.documentId ids.attachmentId)
  | .confirmPurchaseOrder _ b => (A.readOrder b.confirmed).map fun values =>
      .confirmPurchaseOrder (b.command values q.idempotencyKey) ids.confirmation
  | .confirmReceipt documentId b => (A.readReceipt b.confirmed).map fun values =>
      .confirmReceipt documentId (b.command values q.idempotencyKey) ids.confirmation
  | .matchCase version => some (.matchCase ⟨version, q.idempotencyKey⟩ ids.matching)

/-- The answer of a command on a case; `after` is the case that it leaves. -/
def CaseWorld.answer (E : CaseEnv) (w after : CaseWorld) : CaseAct → Except ApiError CaseAnswer
  | .attach c documentId attachmentId => asAnswer .attachment (w.store.attach E w.world.db c documentId attachmentId).2
  | .confirmPurchaseOrder c ids => after.store.readBack c.idempotencyKey (w.store.confirmPurchaseOrder E c ids)
  | .confirmReceipt documentId c ids =>
    after.store.readBack c.idempotencyKey (w.store.confirmGoodsReceipt E w.world.db documentId c ids)
  | .matchCase c fresh => asAnswer .run (w.matchCase E c fresh)
  | _ => .error .invalid

end

/-- What a page keeps between two requests: the key of a confirmation or a match, and a file with its own key. -/
structure Console where
  key : LogicalActionIdempotencyKey CaseRequest
  pending : Option (PendingAttachment × String)

/-- The case, the consoles, the requests in the order they were sent, and the answers with the requests they are to. -/
structure ConsoleWorld where
  case : CaseWorld
  consoles : ℕ → Console
  sent : List SentRequest
  answers : List (ℕ × Except ApiError CaseAnswer)

def ConsoleWorld.initial : ConsoleWorld := ⟨.initial, fun _ => ⟨.complete, none⟩, [], []⟩

inductive ConsoleEvent
  /-- A confirmation or a match is submitted. -/
  | submit (i : ℕ) (request : CaseRequest) (fresh : String)
  /-- A file is picked, or sent again. -/
  | choose (i : ℕ) (attachment : PendingAttachment) (expectedCaseVersion : ℕ) (fresh : String)
  | retry (i : ℕ) (expectedCaseVersion : ℕ)
  /-- A request reaches the API. -/
  | deliver (n : ℕ) (ids : ActionIds)
  /-- An answer reaches its console. -/
  | hear (m : ℕ)
  | other (a : CaseAct)

section

variable (A : ApiEnv) (w : ConsoleWorld)

def ConsoleWorld.send (i : ℕ) (console : Console) (key : String) (request : CaseRequest) : ConsoleWorld :=
  { w with consoles := Function.update w.consoles i console, sent := w.sent ++ [⟨i, key, request⟩] }

/-- `onSuccess`; a failure leaves the console as it is. -/
def Console.heard (console : Console) : CaseRequest → Console
  | .attach _ _ => { console with pending := none }
  | _ => { console with key := .complete }

def ConsoleWorld.next : ConsoleEvent → Option ConsoleWorld
  | .submit i request fresh =>
    match request with
    | .attach _ _ => none
    | _ =>
      let keyed := (w.consoles i).key.keyFor request fresh
      some (w.send i { w.consoles i with key := keyed.1 } keyed.2 request)
  | .choose i attachment version fresh =>
    some (w.send i { w.consoles i with pending := some (attachment, fresh) } fresh (.attach attachment version))
  | .retry i version => (w.consoles i).pending.map fun pending =>
      w.send i (w.consoles i) pending.2 (.attach pending.1 version)
  | .deliver n ids => w.sent[n]?.bind fun q =>
      match A.act q ids with
      | none => some { w with answers := w.answers ++ [(n, .error .invalid)] }
      | some a => (w.case.next A.case a).map fun case =>
          { w with case := case, answers := w.answers ++ [(n, w.case.answer A.case case a)] }
  | .hear m => w.answers[m]?.bind fun answer => w.sent[answer.1]?.map fun q =>
      match answer.2 with
      | .ok _ => { w with consoles := Function.update w.consoles q.console ((w.consoles q.console).heard q.request) }
      | .error _ => w
  | .other a => (w.case.next A.case a).map fun case => { w with case := case }

end

/-- `crypto.randomUUID`: a new key is neither one of a request nor one of a row, and nobody else uses the key of a console. -/
def ConsoleWorld.Fresh (w : ConsoleWorld) : ConsoleEvent → Prop
  | .submit _ _ fresh => (∀ q ∈ w.sent, q.idempotencyKey ≠ fresh) ∧ w.case.store.records fresh = []
  | .choose _ _ _ fresh => (∀ q ∈ w.sent, q.idempotencyKey ≠ fresh) ∧ w.case.store.records fresh = []
  | .other a => ∀ q ∈ w.sent, a.idempotencyKey ≠ some q.idempotencyKey
  | _ => True

instance (w : ConsoleWorld) (e : ConsoleEvent) : Decidable (w.Fresh e) :=
  match e with
  | .submit _ _ _ => inferInstanceAs (Decidable (_ ∧ _))
  | .choose _ _ _ _ => inferInstanceAs (Decidable (_ ∧ _))
  | .other _ => inferInstanceAs (Decidable (∀ q ∈ w.sent, _))
  | .retry _ _ | .deliver _ _ | .hear _ => isTrue trivial

/-- An attachment of the file that was picked. -/
structure PendingAttachment.Made (E : CaseEnv) (w : CaseWorld) (a : PendingAttachment) (d : CaseDocument) : Prop where
  role : d.role = a.role ∧ d.supersedesId = a.supersedesId
  fingerprint : d.requestFingerprint = E.fingerprint (a.command 0 "").json
  file : ∃ u ∈ w.store.uploads, u.id = d.documentId ∧ u.sha256 = a.sha256

/-- A confirmation with what was confirmed. -/
structure ConfirmationBody.Made (E : CaseEnv) (b : ConfirmationBody) (type : CanonicalRecordType) (payload : Json)
    (c : CaseConfirmation) : Prop where
  type : c.canonicalRecordType = type
  run : c.extractionRunId = b.extractionRunId ∧ c.extractorVersion = b.extractorVersion
  reason : c.correctionReason = b.correctionReason
  fingerprint : c.requestFingerprint = E.fingerprint (confirmationJson c.caseDocumentId payload)

structure ConfirmationBody.MadeOrder (A : ApiEnv) (w : CaseWorld) (b : ConfirmationBody) (c : CaseConfirmation) : Prop where
  ordered : (w.store.active .purchaseOrder).isSome
  made : ∃ values payload, A.readOrder b.confirmed = some (values, payload) ∧ b.Made A.case .purchaseOrder payload c ∧
    ∃ ids po, canonicalOrder ids values = some po ∧ po ∈ w.world.db.purchaseOrders ∧ po.id = c.canonicalRecordId

structure ConfirmationBody.MadeReceipt (A : ApiEnv) (w : CaseWorld) (documentId : Uuid) (b : ConfirmationBody)
    (c : CaseConfirmation) : Prop where
  attachment : (w.store.receiptAttachment documentId).map (·.id) = some c.caseDocumentId
  made : ∃ values payload, A.readReceipt b.confirmed = some (values, payload) ∧ b.Made A.case .goodsReceipt payload c ∧
    ∃ ids po lines t r r', po ∈ w.world.db.purchaseOrders ∧ values.referencedPoNumber = po.externalPoNumber ∧
      values.lines.mapM (canonicalReceiptLine po) = some lines ∧ values.receivedAt.toUtc = some t ∧
      canonicalReceipt A.case ids po values t lines = some r ∧ r.id = c.canonicalRecordId ∧ Later r r' ∧ r' ∈ w.world.db.receipts

/-- The record is what the request asks for. -/
def ApiEnv.Asks (A : ApiEnv) (w : CaseWorld) : CaseRequest → CaseRecord → Prop
  | .attach a _, .attachment d => a.Made A.case w d
  | .confirmPurchaseOrder _ b, .confirmation c => b.MadeOrder A w c
  | .confirmReceipt documentId b, .confirmation c => b.MadeReceipt A w documentId c
  | .matchCase _, .context x => ∃ run ∈ w.world.db.runs, run.id = x.matchRunId
  | _, _ => False

def CaseRequest.table : CaseRequest → CaseTable
  | .attach _ _ => .attachments
  | .confirmPurchaseOrder _ _ => .confirmations
  | .confirmReceipt _ _ => .confirmations
  | .matchCase _ => .contexts

section

variable {A : ApiEnv} {w w' : CaseWorld} {q : SentRequest} {r : CaseRecord} {request : CaseRequest}

theorem asks_action : A.Asks w request.action r ↔ A.Asks w request r := by
  cases request <;> cases r <;> rfl

theorem table_of_asks (h : A.Asks w request r) : r.table = request.table := by
  cases request <;> cases r <;> first | rfl | cases h

theorem Asks.keeps (h : A.Asks w request r) (hk : KeepsCase w w') : A.Asks w' request r := by
  cases request with
  | attach a version =>
    cases r with
    | attachment d =>
      obtain ⟨u, hu, hid, hsha⟩ := h.file
      obtain ⟨u', hu', hid', hsha'⟩ := hk.uploads u hu
      exact ⟨h.role, h.fingerprint, u', hu', hid'.trans hid, hsha'.trans hsha⟩
    | _ => cases h
  | confirmPurchaseOrder documentId b =>
    cases r with
    | confirmation c =>
      obtain ⟨values, payload, hread, hmade, ids, po, hpo, hmem, hid⟩ := h.made
      exact ⟨hk.active _ h.ordered, values, payload, hread, hmade, ids, po, hpo, hk.tables.orders hmem, hid⟩
    | _ => cases h
  | confirmReceipt documentId b =>
    cases r with
    | confirmation c =>
      obtain ⟨values, payload, hread, hmade, ids, po, lines, t, g, g', hpo, hnumber, hlines, ht, hg, hid, hlater, hmem⟩ :=
        h.made
      obtain ⟨g'', hmem', hlater'⟩ := exists_later hk.tables.receipts hmem
      exact ⟨hk.receiptAttachment h.attachment, values, payload, hread, hmade, ids, po, lines, t, g, g'',
        hk.tables.orders hpo, hnumber, hlines, ht, hg, hid, hlater.trans hlater', hmem'⟩
    | _ => cases h
  | matchCase version =>
    cases r with
    | context x =>
      obtain ⟨run, hrun, hid⟩ := h
      exact ⟨run, hk.tables.runs.subset hrun, hid⟩
    | _ => cases h

theorem made_of_records {V : Type} {E : CaseEnv} {b : ConfirmationBody} {values : V × Json} {key : String} {d : CaseDocument}
    {type : CanonicalRecordType} {row : CaseConfirmation} (h : RecordsConfirmation E d (b.command values key) type row) :
    b.Made E type values.2 row :=
  ⟨h.type, h.run, h.reason, h.attachment.symm ▸ h.fingerprint⟩

/-- What a step records for a request is what the request asks for. -/
theorem asks_of_records {ids : ActionIds} {a : CaseAct} (hact : A.act q ids = some a) (hk : KeepsCase w w')
    (h : Records A.case w a w') : (∀ key, w'.store.records key = w.store.records key) ∨
      ∃ r, Entered w.store w'.store r ∧ r.idempotencyKey = q.idempotencyKey ∧ A.Asks w' q.request r := by
  obtain ⟨console, key, request⟩ := q
  cases request with
  | attach file version =>
    obtain rfl := Option.some.inj hact
    cases h with
    | none _ hsame => exact .inl hsame
    | attachment hentered _ hd hfingerprint hfile =>
      exact .inr ⟨_, hentered, hd.2.2, ⟨hd.1, hd.2.1⟩, hfingerprint, hfile⟩
  | confirmPurchaseOrder documentId b =>
    obtain ⟨values, hread, rfl⟩ := Option.map_eq_some_iff.1 hact
    cases h with
    | none _ hsame => exact .inl hsame
    | order hentered hrow hd hpo hmem hid =>
      exact .inr ⟨_, hentered, hrow.key, hk.active _ (hd ▸ rfl), _, _, hread, made_of_records hrow, _, _, hpo, hmem, hid⟩
  | confirmReceipt documentId b =>
    obtain ⟨values, hread, rfl⟩ := Option.map_eq_some_iff.1 hact
    cases h with
    | none _ hsame => exact .inl hsame
    | receipt hentered hrow hd _ hpo hnumber hlines ht hr hmem hid =>
      refine .inr ⟨_, hentered, hrow.key, hk.receiptAttachment ?_, _, _, hread, made_of_records hrow, _, _, _, _, _, _,
        hk.tables.orders hpo, hnumber, hlines, ht, hr, hid, .inl rfl, hmem⟩
      rw [hd, hrow.attachment]
      rfl
  | matchCase version =>
    obtain rfl := Option.some.inj hact
    cases h with
    | none _ hsame => exact .inl hsame
    | context hentered hkey hrun hid => exact .inr ⟨_, hentered, hkey, _, hrun, hid⟩

/-- The case keeps what it has done under keys; a key is for one action of one console. -/
def ApiEnv.keyed (A : ApiEnv) : KeyedService CaseWorld SentRequest String (ℕ × CaseRequest) CaseRecord where
  key q := q.idempotencyKey
  action q := (q.console, q.request.action)
  records w key := w.store.records key
  Asks w b r := A.Asks w b.2 r

theorem handles_of_next {ids : ActionIds} {a : CaseAct} {acts : List CaseAct} (hact : A.act q ids = some a)
    (hrun : Steps (CaseWorld.next A.case) .initial acts w) (h : w.next A.case a = some w') : A.keyed.Handles w q w' := by
  have hk := keepsCase_of_next hrun h
  have hkeeps : A.keyed.Keeps w w' := fun b r hasks => Asks.keeps hasks hk
  obtain hsame | ⟨r, hentered, hkey, hasks⟩ := asks_of_records hact hk (records_of_next (caseOk_of_steps hrun) h)
  · exact ⟨hkeeps, fun k _ => hsame k, fun hnone => .inl ((hsame _).trans hnone), fun r hr _ => (hsame _).trans hr⟩
  · refine ⟨hkeeps, fun k hk' => ?_, fun hnone => .inr ⟨r, ?_, asks_action.2 hasks⟩, fun r' hr' hasks' => ?_⟩
    · obtain ⟨before, after, hbefore, hafter⟩ := hentered.records k
      rw [if_neg (fun heq => hk' (heq.symm.trans hkey))] at hafter
      exact hafter.trans hbefore.symm
    · obtain ⟨before, after, hbefore, hafter⟩ := hentered.records q.idempotencyKey
      obtain ⟨rfl, rfl⟩ := List.append_eq_nil_iff.1 (hbefore.symm.trans hnone)
      rw [if_pos hkey] at hafter
      exact hafter
    · -- the table of the request has no second row under a key
      have hone : w.store.records q.idempotencyKey = [r'] := hr'
      have hmem : r' ∈ w.store.records r.idempotencyKey := by
        rw [hkey, hone]
        exact List.mem_singleton_self r'
      refine absurd ?_ (hentered.fresh r' hmem)
      rw [table_of_asks (asks_action.1 hasks'), table_of_asks hasks]

end

/-- The match was asked for in an earlier state of the case, was answered there with the run of the context, and the
context is under its key or was found for it there. -/
def CaseWorld.AskedFor (E : CaseEnv) (w : CaseWorld) (q : SentRequest) (run : MatchRun) (x : CaseMatchContext) : Prop :=
  ∃ (u : CaseWorld) (before after : List CaseAct) (version : ℕ) (fresh : FreshIds),
    Steps (CaseWorld.next E) .initial before u ∧ Steps (CaseWorld.next E) u after w ∧ q.request = .matchCase version ∧
    u.matchCase E ⟨version, q.idempotencyKey⟩ fresh = .ok run ∧ u.store.Finds E u.world.db ⟨version, q.idempotencyKey⟩ x

/-- What a success says: the record under the key of the request, or the run the match was answered with. -/
def CaseWorld.Answered (E : CaseEnv) (w : CaseWorld) (q : SentRequest) : CaseAnswer → Prop
  | .attachment d => w.store.records q.idempotencyKey = [.attachment d.bare]
  | .confirmation c => w.store.records q.idempotencyKey = [.confirmation c]
  | .run run => run ∈ w.world.db.runs ∧ ∃ x ∈ w.store.contexts, x.matchRunId = run.id ∧ w.AskedFor E q run x

/-- The keys a console holds are those of what it has sent. -/
structure Console.Backed (console : Console) (i : ℕ) (sent : List SentRequest) : Prop where
  key : ∀ key request, console.key = ⟨some request, some key⟩ → (⟨i, key, request⟩ : SentRequest) ∈ sent
  pending : ∀ a key, console.pending = some (a, key) → ∃ version, (⟨i, key, .attach a version⟩ : SentRequest) ∈ sent

structure ConsoleInv (A : ApiEnv) (w : ConsoleWorld) : Prop where
  run : ∃ acts, Steps (CaseWorld.next A.case) .initial acts w.case
  once : A.keyed.Once w.case w.sent
  consoles : ∀ i, (w.consoles i).Backed i w.sent
  answers : ∀ n answer, (n, .ok answer) ∈ w.answers → ∃ q, w.sent[n]? = some q ∧ w.case.Answered A.case q answer

section

variable {A : ApiEnv} {w w' : ConsoleWorld} {e : ConsoleEvent} {i : ℕ} {q : SentRequest}

theorem keyFor_cases {F : Type} [DecidableEq F] (holder : LogicalActionIdempotencyKey F) (fingerprint : F) (fresh : String) :
    (∃ key, holder = ⟨some fingerprint, some key⟩ ∧ holder.keyFor fingerprint fresh = (holder, key)) ∨
      holder.keyFor fingerprint fresh = (⟨some fingerprint, some fresh⟩, fresh) := by
  obtain ⟨f, _ | key⟩ := holder
  · exact .inr rfl
  · simp only [LogicalActionIdempotencyKey.keyFor]
    split_ifs with hf
    · exact .inr rfl
    · obtain rfl := not_ne_iff.1 hf
      exact .inl ⟨key, rfl, rfl⟩

/-- The rows under the keys of others stay. -/
theorem records_of_other {E : CaseEnv} {u u' : CaseWorld} {a : CaseAct} {key : String} (h : Records E u a u')
    (hkey : a.idempotencyKey ≠ some key) : u'.store.records key = u.store.records key := by
  have hentered : ∀ r, Entered u.store u'.store r → r.idempotencyKey ≠ key → u'.store.records key = u.store.records key := by
    intro r hr hne
    obtain ⟨before, after, hbefore, hafter⟩ := hr.records key
    rw [if_neg hne] at hafter
    exact hafter.trans hbefore.symm
  cases h with
  | none _ hsame => exact hsame key
  | attachment hr _ hd => exact hentered _ hr fun heq => hkey (congrArg some (hd.2.2.symm.trans heq))
  | order hr hrow => exact hentered _ hr fun heq => hkey (congrArg some (hrow.key.symm.trans heq))
  | receipt hr hrow => exact hentered _ hr fun heq => hkey (congrArg some (hrow.key.symm.trans heq))
  | context hr hx => exact hentered _ hr fun heq => hkey (congrArg some (hx.symm.trans heq))

/-- What a step of the consoles is for the case and the requests. -/
theorem moves_of_console (h : ConsoleInv A w) (hfresh : w.Fresh e) (hn : w.next A e = some w') :
    A.keyed.Moves w.case w.sent w'.case w'.sent := by
  have hrefl : A.keyed.Moves w.case w.sent w.case w.sent := .other (fun _ _ hasks => hasks) fun _ _ => rfl
  cases e with
  | submit i request fresh =>
    have hsend : A.keyed.MaySend w.case w.sent ⟨i, ((w.consoles i).key.keyFor request fresh).2, request⟩ := by
      obtain ⟨key, hholder, hkey⟩ | hkey := keyFor_cases (w.consoles i).key request fresh
      · exact .inl ⟨_, (h.consoles i).key key request hholder, by rw [hkey], rfl⟩
      · rw [hkey]
        exact .inr hfresh
    cases request with
    | attach => cases hn
    | _ =>
      obtain rfl := Option.some.inj hn
      exact .send hsend
  | choose i attachment version fresh =>
    obtain rfl := Option.some.inj hn
    exact .send (.inr hfresh)
  | retry i version =>
    obtain ⟨⟨a, key⟩, hpending, rfl⟩ := Option.map_eq_some_iff.1 hn
    obtain ⟨version', hsent⟩ := (h.consoles i).pending a key hpending
    exact .send (.inl ⟨_, hsent, rfl, rfl⟩)
  | deliver n ids =>
    obtain ⟨q, hq, hn⟩ := Option.bind_eq_some_iff.1 hn
    split at hn
    · obtain rfl := Option.some.inj hn
      exact hrefl
    · next a hact =>
      obtain ⟨u, hu, rfl⟩ := Option.map_eq_some_iff.1 hn
      obtain ⟨acts, hrun⟩ := h.run
      exact .deliver (List.mem_of_getElem? hq) (handles_of_next hact hrun hu)
  | hear m =>
    obtain ⟨answer, -, hn⟩ := Option.bind_eq_some_iff.1 hn
    obtain ⟨q, -, rfl⟩ := Option.map_eq_some_iff.1 hn
    split
    · exact hrefl
    · exact hrefl
  | other a =>
    obtain ⟨u, hu, rfl⟩ := Option.map_eq_some_iff.1 hn
    obtain ⟨acts, hrun⟩ := h.run
    have hk := keepsCase_of_next hrun hu
    exact .other (fun b r hasks => Asks.keeps hasks hk) fun q hq =>
      records_of_other (records_of_next (caseOk_of_steps hrun) hu) (hfresh q hq)

theorem Console.Backed.mono {console : Console} {sent sent' : List SentRequest} (h : console.Backed i sent)
    (hsub : sent ⊆ sent') : console.Backed i sent' :=
  ⟨fun key request hk => hsub (h.key key request hk),
    fun a key hp => (h.pending a key hp).imp fun _ hmem => hsub hmem⟩

theorem backed_update {console : Console} {sent : List SentRequest} (h : ∀ j, (w.consoles j).Backed j sent)
    (hi : console.Backed i sent) (j : ℕ) : (Function.update w.consoles i console j).Backed j sent := by
  by_cases hij : j = i
  · subst hij
    rwa [Function.update_self]
  · rw [Function.update_of_ne hij]
    exact h j

theorem backed_send (h : ∀ j, (w.consoles j).Backed j w.sent) {console : Console} {key : String} {request : CaseRequest}
    (hi : console.Backed i (w.sent ++ [⟨i, key, request⟩])) (j : ℕ) :
    ((w.send i console key request).consoles j).Backed j (w.send i console key request).sent :=
  backed_update (fun j => (h j).mono (List.subset_append_left _ _)) hi j

theorem Console.Backed.heard {console : Console} {sent : List SentRequest} (h : console.Backed i sent) (request : CaseRequest) :
    (console.heard request).Backed i sent := by
  cases request with
  | attach => exact ⟨h.key, (fun a key hp => by cases hp)⟩
  | _ => exact ⟨(fun key request hk => by cases hk), h.pending⟩

theorem Console.Backed.keyed {console : Console} {sent : List SentRequest} (h : console.Backed i sent) (request : CaseRequest)
    (fresh : String) : Console.Backed { console with key := (console.key.keyFor request fresh).1 } i
      (sent ++ [⟨i, (console.key.keyFor request fresh).2, request⟩]) := by
  refine ⟨fun key' request' hk => ?_, fun a key' hp => ?_⟩
  · obtain ⟨key, -, hkeyed⟩ | hkeyed := keyFor_cases console.key request fresh
    · simp only [hkeyed] at hk
      exact List.mem_append_left _ (h.key key' request' hk)
    · simp only [hkeyed] at hk ⊢
      obtain ⟨hrequest, hkey⟩ := LogicalActionIdempotencyKey.mk.inj hk
      rw [Option.some.inj hrequest, Option.some.inj hkey]
      exact List.mem_append_right _ (List.mem_singleton_self _)
  · obtain ⟨version, hmem⟩ := h.pending a key' hp
    exact ⟨version, List.mem_append_left _ hmem⟩

theorem ConsoleInv.consoles_step (h : ConsoleInv A w) (hn : w.next A e = some w') (i : ℕ) :
    (w'.consoles i).Backed i w'.sent := by
  cases e with
  | submit j request fresh =>
    cases request with
    | attach => cases hn
    | _ =>
      obtain rfl := Option.some.inj hn
      exact backed_send h.consoles ((h.consoles j).keyed _ fresh) i
  | choose j attachment version fresh =>
    obtain rfl := Option.some.inj hn
    refine backed_send h.consoles ⟨fun key request hk => ?_, fun a key hp => ?_⟩ i
    · exact List.mem_append_left _ ((h.consoles j).key key request hk)
    · obtain ⟨rfl, rfl⟩ := Prod.mk.inj (Option.some.inj hp)
      exact ⟨version, List.mem_append_right _ (List.mem_singleton_self _)⟩
  | retry j version =>
    obtain ⟨⟨a, key⟩, hpending, rfl⟩ := Option.map_eq_some_iff.1 hn
    exact backed_send h.consoles ((h.consoles j).mono (List.subset_append_left _ _)) i
  | deliver n ids =>
    obtain ⟨q, hq, hn⟩ := Option.bind_eq_some_iff.1 hn
    split at hn
    · obtain rfl := Option.some.inj hn
      exact h.consoles i
    · obtain ⟨u, hu, rfl⟩ := Option.map_eq_some_iff.1 hn
      exact h.consoles i
  | hear m =>
    obtain ⟨answer, -, hn⟩ := Option.bind_eq_some_iff.1 hn
    obtain ⟨q, -, rfl⟩ := Option.map_eq_some_iff.1 hn
    split
    · exact backed_update h.consoles ((h.consoles q.console).heard q.request) i
    · exact h.consoles i
  | other a =>
    obtain ⟨u, hu, rfl⟩ := Option.map_eq_some_iff.1 hn
    exact h.consoles i

/-- What a success has said stays true. -/
theorem answered_step {u u' : CaseWorld} {sent sent' : List SentRequest} {answer : CaseAnswer} (h : A.keyed.Once u sent)
    {acts : List CaseAct} (hrun : Steps (CaseWorld.next A.case) .initial acts u)
    (hstep : A.keyed.Moves u sent u' sent') (hcase : u' = u ∨ ∃ a, u.next A.case a = some u') (hq : q ∈ sent)
    (ha : u.Answered A.case q answer) : u'.Answered A.case q answer := by
  cases answer with
  | attachment d => exact h.stays hstep hq ha
  | confirmation c => exact h.stays hstep hq ha
  | run run =>
    obtain rfl | ⟨a, hn⟩ := hcase
    · exact ha
    · obtain ⟨hmem, x, hx, hid, v, before, after, version, fresh, hbefore, hafter, hrest⟩ := ha
      have hk := keepsCase_of_next hrun hn
      exact ⟨hk.tables.runs.subset hmem, x, hk.contexts.subset hx, hid, v, before, after ++ [a], version, fresh, hbefore,
        hafter.snoc hn, hrest⟩

theorem mem_of_readBack {α : Type} {s : CaseStore} {key : String} {found : Except CaseError α} {answer : CaseAnswer}
    (h : s.readBack key found = .ok answer) : ∃ c, answer = .confirmation c ∧ .confirmation c ∈ s.records key := by
  unfold CaseStore.readBack at h
  split at h
  · cases h
  · split at h
    · next c hc =>
      have hkey : c.idempotencyKey = key := by simpa using List.find?_some hc
      exact ⟨c, (Except.ok.inj h).symm, mem_records.2 ⟨hkey, List.mem_of_find?_eq_some hc⟩⟩
    · cases h

theorem asAnswer_ok {α : Type} {f : α → CaseAnswer} {found : Except CaseError α} {answer : CaseAnswer}
    (h : asAnswer f found = .ok answer) : ∃ a, found = .ok a ∧ answer = f a := by
  cases found with
  | error e => cases h
  | ok a => exact ⟨a, rfl, (Except.ok.inj h).symm⟩

/-- A success says what is under the key afterwards. -/
theorem answered_of_next {u u' : CaseWorld} {acts : List CaseAct} (hbefore : Steps (CaseWorld.next A.case) .initial acts u)
    {sent : List SentRequest} {ids : ActionIds} {a : CaseAct} {answer : CaseAnswer}
    (hact : A.act q ids = some a) (hn : u.next A.case a = some u') (honce : A.keyed.Once u' sent) (hq : q ∈ sent)
    (h : u.answer A.case u' a = .ok answer) : u'.Answered A.case q answer := by
  have hone : ∀ r, r ∈ u'.store.records q.idempotencyKey → u'.store.records q.idempotencyKey = [r] := by
    intro r hr
    obtain hnone | ⟨r', hr', -⟩ := honce.records q hq
    · have hnone' : u'.store.records q.idempotencyKey = [] := hnone
      rw [hnone'] at hr
      cases hr
    · have hr'' : u'.store.records q.idempotencyKey = [r'] := hr'
      rw [hr''] at hr ⊢
      rw [List.mem_singleton.1 hr]
  obtain ⟨console, key, request⟩ := q
  cases request with
  | attach file version =>
    obtain rfl := Option.some.inj hact
    obtain rfl := Option.some.inj hn
    obtain ⟨d, hd, rfl⟩ := asAnswer_ok h
    obtain ⟨hmem, hkey⟩ := attach_ok hd
    exact hone _ (mem_records.2 ⟨hkey, List.mem_map_of_mem hmem⟩)
  | confirmPurchaseOrder documentId b =>
    obtain ⟨values, -, rfl⟩ := Option.map_eq_some_iff.1 hact
    obtain ⟨c, rfl, hc⟩ := mem_of_readBack h
    exact hone _ hc
  | confirmReceipt documentId b =>
    obtain ⟨values, -, rfl⟩ := Option.map_eq_some_iff.1 hact
    obtain ⟨c, rfl, hc⟩ := mem_of_readBack h
    exact hone _ hc
  | matchCase version =>
    obtain rfl := Option.some.inj hact
    obtain ⟨run, hrun, rfl⟩ := asAnswer_ok h
    obtain ⟨hmem, x, hx, hid, hfinds⟩ := matchCase_ok hrun hn
    exact ⟨hmem, x, hx, hid, u, acts, [_], version, ids.matching, hbefore, .snoc .nil hn, rfl, hrun, hfinds⟩

theorem getElem?_prefix {α : Type} {xs ys : List α} (h : xs <+: ys) {n : ℕ} {x : α} (hx : xs[n]? = some x) :
    ys[n]? = some x := by
  obtain ⟨zs, rfl⟩ := h
  exact (List.getElem?_append_left (List.getElem?_eq_some_iff.1 hx).1).trans hx

theorem consoleInv_initial : ConsoleInv A .initial where
  run := ⟨[], .nil⟩
  once := ⟨fun _ hp => (List.not_mem_nil hp).elim, fun _ hq => (List.not_mem_nil hq).elim⟩
  consoles _ := ⟨(fun _ _ hk => by cases hk), (fun _ _ hp => by cases hp)⟩
  answers _ _ ha := (List.not_mem_nil ha).elim

/-- What a step does to the case, and to the answers. -/
theorem case_of_console (hn : w.next A e = some w') :
    (w'.case = w.case ∨ ∃ a, w.case.next A.case a = some w'.case) ∧ w.sent <+: w'.sent ∧
      ∀ n answer, (n, .ok answer) ∈ w'.answers → (n, .ok answer) ∈ w.answers ∨
        ∃ q ids a, w.sent[n]? = some q ∧ A.act q ids = some a ∧ w.case.next A.case a = some w'.case ∧
          w.case.answer A.case w'.case a = .ok answer := by
  have hsend : ∀ i console key request, w' = w.send i console key request → (w'.case = w.case ∨
      ∃ a, w.case.next A.case a = some w'.case) ∧ w.sent <+: w'.sent ∧
        ∀ n answer, (n, .ok answer) ∈ w'.answers → (n, .ok answer) ∈ w.answers ∨
          ∃ q ids a, w.sent[n]? = some q ∧ A.act q ids = some a ∧ w.case.next A.case a = some w'.case ∧
            w.case.answer A.case w'.case a = .ok answer := by
    rintro i console key request rfl
    exact ⟨.inl rfl, List.prefix_append _ _, fun _ _ ha => .inl ha⟩
  cases e with
  | submit j request fresh =>
    cases request with
    | attach => cases hn
    | _ => exact hsend _ _ _ _ (Option.some.inj hn).symm
  | choose j attachment version fresh => exact hsend _ _ _ _ (Option.some.inj hn).symm
  | retry j version =>
    obtain ⟨⟨a, key⟩, -, hw'⟩ := Option.map_eq_some_iff.1 hn
    exact hsend _ _ _ _ hw'.symm
  | deliver n ids =>
    obtain ⟨q, hq, hn⟩ := Option.bind_eq_some_iff.1 hn
    split at hn
    · obtain rfl := Option.some.inj hn
      refine ⟨.inl rfl, List.prefix_refl _, fun m answer ha => ?_⟩
      obtain ha | ha := List.mem_append.1 ha
      · exact .inl ha
      · cases List.mem_singleton.1 ha
    · next a hact =>
      obtain ⟨u, hu, rfl⟩ := Option.map_eq_some_iff.1 hn
      refine ⟨.inr ⟨a, hu⟩, List.prefix_refl _, fun m answer ha => ?_⟩
      obtain ha | ha := List.mem_append.1 ha
      · exact .inl ha
      · obtain ⟨rfl, hanswer⟩ := Prod.mk.inj (List.mem_singleton.1 ha)
        exact .inr ⟨q, ids, a, hq, hact, hu, hanswer.symm⟩
  | hear m =>
    obtain ⟨answer, -, hn⟩ := Option.bind_eq_some_iff.1 hn
    obtain ⟨q, -, rfl⟩ := Option.map_eq_some_iff.1 hn
    split
    · exact ⟨.inl rfl, List.prefix_refl _, fun _ _ ha => .inl ha⟩
    · exact ⟨.inl rfl, List.prefix_refl _, fun _ _ ha => .inl ha⟩
  | other a =>
    obtain ⟨u, hu, rfl⟩ := Option.map_eq_some_iff.1 hn
    exact ⟨.inr ⟨a, hu⟩, List.prefix_refl _, fun _ _ ha => .inl ha⟩

theorem ConsoleInv.step (h : ConsoleInv A w) (hfresh : w.Fresh e) (hn : w.next A e = some w') : ConsoleInv A w' := by
  have hmoves := moves_of_console h hfresh hn
  have honce := h.once.step hmoves
  obtain ⟨hcase, hsent, hanswers⟩ := case_of_console hn
  obtain ⟨acts, hrun⟩ := h.run
  refine ⟨?_, honce, h.consoles_step hn, fun n answer ha => ?_⟩
  · obtain hsame | ⟨a, ha⟩ := hcase
    · exact ⟨acts, hsame ▸ hrun⟩
    · exact ⟨acts ++ [a], hrun.snoc ha⟩
  · obtain hold | ⟨q, ids, a, hq, hact, hu, hanswer⟩ := hanswers n answer ha
    · obtain ⟨q, hq, hsaid⟩ := h.answers n answer hold
      exact ⟨q, getElem?_prefix hsent hq, answered_step h.once hrun hmoves hcase (List.mem_of_getElem? hq) hsaid⟩
    · exact ⟨q, getElem?_prefix hsent hq,
        answered_of_next hrun hact hu honce (hsent.subset (List.mem_of_getElem? hq)) hanswer⟩

theorem consoleInv_of_steps {events : List ConsoleEvent}
    (h : Steps (restrict ConsoleWorld.Fresh (ConsoleWorld.next A)) .initial events w) : ConsoleInv A w :=
  h.invariant (I := ConsoleInv A) (fun _ _ _ hinv hn => hinv.step (restrict_eq_some.1 hn).1 (restrict_eq_some.1 hn).2)
    consoleInv_initial

/-- Why a confirmation that was carried out is refused when it is asked for again: its attachment has been replaced. -/
def CaseStore.replaced (s : CaseStore) (c : CaseConfirmation) : CaseRequest → Option CaseError
  | .confirmReceipt _ _ =>
    if s.hasSuccessor c.caseDocumentId = true then
      some (.caseConflict "ATTACHMENT_SUPERSEDED" "A superseded receipt cannot be confirmed")
    else none
  | _ => if (s.active .purchaseOrder).map (·.id) = some c.caseDocumentId then none else some caseKeyReused

/-- The answer to a request whose key has a row. -/
def CaseWorld.Repeats (w : CaseWorld) (request : CaseRequest) (answer : Except ApiError CaseAnswer) : CaseRecord → Prop
  | .attachment d => ∃ d', answer = .ok (.attachment d') ∧ d'.bare = d
  | .confirmation c => answer = match w.store.replaced c request with
    | none => .ok (.confirmation c)
    | some e => .error (.refused e)
  | .context x => ∃ run ∈ w.world.db.runs, answer = .ok (.run run) ∧ run.id = x.matchRunId

theorem deliver_same {n : ℕ} {ids : ActionIds} {a : CaseAct} (hq : w.sent[n]? = some q) (hact : A.act q ids = some a)
    (hsame : w.case.next A.case a = some w.case) (hn : w.next A (.deliver n ids) = some w') :
    w'.case = w.case ∧ w'.answers = w.answers ++ [(n, w.case.answer A.case w.case a)] := by
  simp only [ConsoleWorld.next, hq, Option.bind_some, hact, hsame, Option.map_some, Option.some.injEq] at hn
  obtain rfl := hn
  exact ⟨rfl, rfl⟩

section

variable {u : CaseWorld} {key : String} {documentId : Uuid} {b : ConfirmationBody} {c : CaseConfirmation}

theorem readBack_again {α : Type} (h : u.store.records key = [.confirmation c]) (found : α) :
    u.store.readBack key (.ok found) = .ok (.confirmation c) := by
  simp only [CaseStore.readBack, find_confirmation h]

/-- A purchase order that was confirmed is confirmed again. -/
theorem order_again (hsha : Function.Injective A.case.matching.dumps.sha256) (hr : u.store.records key = [.confirmation c])
    (hasks : b.MadeOrder A u c) {values : PurchaseOrderValues × Json} (hread : A.readOrder b.confirmed = some values)
    (ids : ConfirmIds) : u.next A.case (.confirmPurchaseOrder (b.command values key) ids) = some u ∧
      u.Repeats (.confirmPurchaseOrder documentId b)
        (u.answer A.case u (.confirmPurchaseOrder (b.command values key) ids)) (.confirmation c) := by
  obtain ⟨values', payload, hread', hmade, -⟩ := hasks.made
  obtain rfl := Option.some.inj (hread.symm.trans hread')
  obtain ⟨d, hd⟩ := Option.isSome_iff_exists.1 hasks.ordered
  have hagain := confirmation_again hsha hr hmade.fingerprint d.id
  have hactive : u.store.activeAttachment .purchaseOrder = .ok d := by
    simp only [CaseStore.activeAttachment, hd]
  simp only [CaseWorld.next, CaseWorld.answer, CaseStore.confirmPurchaseOrder, hactive, ConfirmationBody.command, hagain,
    CaseWorld.Repeats, CaseStore.replaced, hd, Option.map_some, Option.some.injEq]
  by_cases hid : d.id = c.caseDocumentId
  · simp only [if_pos hid]
    exact ⟨trivial, readBack_again hr _⟩
  · simp only [if_neg hid]
    exact ⟨trivial, rfl⟩

theorem receipt_again (hsha : Function.Injective A.case.matching.dumps.sha256) (hr : u.store.records key = [.confirmation c])
    (hasks : b.MadeReceipt A u documentId c) {values : ReceiptValues × Json} (hread : A.readReceipt b.confirmed = some values)
    (ids : ConfirmIds) : u.next A.case (.confirmReceipt documentId (b.command values key) ids) = some u ∧
      u.Repeats (.confirmReceipt documentId b)
        (u.answer A.case u (.confirmReceipt documentId (b.command values key) ids)) (.confirmation c) := by
  obtain ⟨values', payload, hread', hmade, -⟩ := hasks.made
  obtain rfl := Option.some.inj (hread.symm.trans hread')
  obtain ⟨d, hd, hid⟩ := Option.map_eq_some_iff.1 hasks.attachment
  have hagain := confirmation_again hsha hr hmade.fingerprint c.caseDocumentId
  rw [if_pos rfl] at hagain
  simp only [CaseWorld.next, CaseWorld.answer, CaseStore.confirmGoodsReceipt, hd, ConfirmationBody.command, hagain,
    CaseWorld.Repeats, CaseStore.replaced, hid]
  by_cases hsuccessor : u.store.hasSuccessor c.caseDocumentId = true
  · simp only [if_pos hsuccessor]
    exact ⟨trivial, rfl⟩
  · simp only [if_neg hsuccessor]
    exact ⟨trivial, readBack_again hr _⟩

theorem run_again {version : ℕ} {x : CaseMatchContext} {run : MatchRun} (hr : u.store.records key = [.context x])
    (hids : (u.world.db.runs.map (·.id)).Nodup) (hrun : run ∈ u.world.db.runs) (hid : run.id = x.matchRunId)
    (fresh : FreshIds) : u.next A.case (.matchCase ⟨version, key⟩ fresh) = some u ∧
      u.Repeats (.matchCase version) (u.answer A.case u (.matchCase ⟨version, key⟩ fresh)) (.context x) := by
  have hplan : u.store.planMatch A.case u.world.db ⟨version, key⟩ = .ok (.replay run) := match_again hr hids hrun hid
  simp only [CaseWorld.next, CaseWorld.answer, CaseWorld.matchCase, hplan, CaseWorld.Repeats]
  exact ⟨trivial, run, hrun, rfl, hid⟩

theorem file_again {file : PendingAttachment} {version : ℕ} {d : CaseDocument} (hr : u.store.records key = [.attachment d])
    (hasks : file.Made A.case u d) (documentId attachmentId : Uuid) :
    u.next A.case (.attach (file.command version key) documentId attachmentId) = some u ∧
      u.Repeats (.attach file version) (u.answer A.case u (.attach (file.command version key) documentId attachmentId))
        (.attachment d) := by
  obtain ⟨d', hd', hattach⟩ := @attach_again A.case u.store u.world.db (file.command version key) d hr hasks.fingerprint
    documentId attachmentId
  simp only [CaseWorld.next, CaseWorld.answer, hattach, CaseWorld.Repeats]
  exact ⟨trivial, d', rfl, hd'⟩

end

-- A purchase order is picked and confirmed, and the first answer to either request is lost.

def tapApi : ApiEnv where
  case := tapCaseEnv
  readOrder text :=
    if text = "taps" then
      some (⟨"PO-1", some "Acme", "EUR", [⟨"1", "Tap", ⟨false, 1, 0⟩, ⟨false, 10, 0⟩, none⟩]⟩, .obj [])
    else none
  readReceipt _ := none

def tapActionIds (n : ℕ) : ActionIds := ⟨Uuid.ofNat n, Uuid.ofNat (n + 1), tapIds n, tapFresh n⟩

def tapConfirmed : CaseRequest := .confirmPurchaseOrder (Uuid.ofNat 100) ⟨3, Uuid.ofNat 102, "v1", "taps", none⟩

def resentEvents : List ConsoleEvent :=
  [.choose 0 ⟨.purchaseOrder, "100", none⟩ 1 "k1", .deliver 0 (tapActionIds 100), .retry 0 2, .deliver 1 (tapActionIds 150),
    .hear 1, .other (tapExtracted .purchaseOrder 100), .submit 0 tapConfirmed "k2", .deliver 2 (tapActionIds 100),
    .submit 0 tapConfirmed "k3"]

/-- The confirmation that is the only row of a key. -/
def soleConfirmation : List CaseRecord → Option CaseConfirmation
  | [.confirmation c] => some c
  | _ => none

theorem soleConfirmation_eq_some {rows : List CaseRecord} {c : CaseConfirmation} (h : soleConfirmation rows = some c) :
    rows = [.confirmation c] := by
  unfold soleConfirmation at h
  split at h
  · rw [Option.some.inj h]
  · cases h

theorem resent : ∃ w w', Steps (restrict ConsoleWorld.Fresh (ConsoleWorld.next tapApi)) .initial resentEvents w ∧
    w.sent.map SentRequest.idempotencyKey = ["k1", "k1", "k2", "k2"] ∧
    w.next tapApi (.deliver 3 (tapActionIds 200)) = some w' ∧ (∃ q, w.sent[3]? = some q ∧ q.request = tapConfirmed ∧
      ∃ c, w.case.store.records q.idempotencyKey = [.confirmation c] ∧ w.case.store.replaced c q.request = none) := by
  have hexec : (exec (restrict ConsoleWorld.Fresh (ConsoleWorld.next tapApi)) .initial resentEvents).any (fun w =>
      decide (w.sent.map SentRequest.idempotencyKey = ["k1", "k1", "k2", "k2"]) &&
        ((w.next tapApi (.deliver 3 (tapActionIds 200))).isSome && w.sent[3]?.any fun q =>
          decide (q.request = tapConfirmed) && (soleConfirmation (w.case.store.records q.idempotencyKey)).any fun c =>
            (w.case.store.replaced c q.request).isNone)) = true := by
    decide +kernel
  obtain ⟨w, hw, hexec⟩ := (Option.any_eq_true _ _).1 hexec
  obtain ⟨hkeys, hexec⟩ := Bool.and_eq_true_iff.1 hexec
  obtain ⟨hnext, hexec⟩ := Bool.and_eq_true_iff.1 hexec
  obtain ⟨w', hw'⟩ := Option.isSome_iff_exists.1 hnext
  obtain ⟨q, hq, hexec⟩ := (Option.any_eq_true _ _).1 hexec
  obtain ⟨hrequest, hexec⟩ := Bool.and_eq_true_iff.1 hexec
  refine ⟨w, w', .of_exec hw, of_decide_eq_true hkeys, hw', q, hq, of_decide_eq_true hrequest, ?_⟩
  obtain ⟨c, hc, hreplaced⟩ := (Option.any_eq_true _ _).1 hexec
  exact ⟨c, soleConfirmation_eq_some hc, Option.isNone_iff_eq_none.1 hreplaced⟩

/-- A key is for one action of one console and has at most one row, which is what every request under it asks for. A success
says this row; that of a match may also say the run of a context found for it. -/
structure ConsoleWorld.Once (A : ApiEnv) (w : ConsoleWorld) : Prop where
  keys : ∀ p ∈ w.sent, ∀ q ∈ w.sent, p.idempotencyKey = q.idempotencyKey →
    p.console = q.console ∧ p.request.action = q.request.action
  records : ∀ q ∈ w.sent, w.case.store.records q.idempotencyKey = [] ∨
    ∃ r, w.case.store.records q.idempotencyKey = [r] ∧ A.Asks w.case q.request r
  answers : ∀ n answer, (n, .ok answer) ∈ w.answers → ∃ q, w.sent[n]? = some q ∧ w.case.Answered A.case q answer

/-- Whatever the network loses, delays and repeats, and whatever others do to the case in between: what a console asks for
under a key is done at most once. A success is about just that; where a match finds no row under its key it may be
answered with the run that is stored, under another key, for the context the case has at that moment. -/
theorem actions_once (A : ApiEnv) {events : List ConsoleEvent} {w : ConsoleWorld}
    (h : Steps (restrict ConsoleWorld.Fresh (ConsoleWorld.next A)) .initial events w) : w.Once A := by
  have hinv := consoleInv_of_steps h
  refine ⟨fun p hp q hq hkey => ?_, fun q hq => ?_, hinv.answers⟩
  · obtain ⟨hconsole, haction⟩ := Prod.mk.inj (hinv.once.agree p hp q hq hkey)
    exact ⟨hconsole, haction⟩
  · exact (hinv.once.records q hq).imp_right fun ⟨r, hr, hasks⟩ => ⟨r, hr, asks_action.1 hasks⟩

theorem actions_once_resent : ∃ w : ConsoleWorld,
    w.sent.map SentRequest.idempotencyKey = ["k1", "k1", "k2", "k2"] ∧ w.Once tapApi := by
  obtain ⟨w, -, hrun, hkeys, -⟩ := resent
  exact ⟨w, hkeys, actions_once tapApi hrun⟩

/-- A request that has been carried out is not carried out again: it is answered with what it has led to, unless it is a
confirmation for an attachment that has been replaced since. -/
theorem request_repeated {A : ApiEnv} (hsha : Function.Injective A.case.matching.dumps.sha256) {events : List ConsoleEvent}
    {w w' : ConsoleWorld} (h : Steps (restrict ConsoleWorld.Fresh (ConsoleWorld.next A)) .initial events w) {n : ℕ}
    {ids : ActionIds} (hn : w.next A (.deliver n ids) = some w') {q : SentRequest} (hq : w.sent[n]? = some q)
    {r : CaseRecord} (hr : w.case.store.records q.idempotencyKey = [r]) :
    w'.case = w.case ∧ ∃ answer, w'.answers = w.answers ++ [(n, answer)] ∧ w.case.Repeats q.request answer r := by
  have hinv := consoleInv_of_steps h
  obtain ⟨acts, hrun⟩ := hinv.run
  have hasks : A.Asks w.case q.request r := by
    obtain hnone | ⟨r', hr', hasks⟩ := hinv.once.records q (List.mem_of_getElem? hq)
    · cases hnone.symm.trans hr
    · obtain rfl := (List.cons.inj (hr'.symm.trans hr)).1
      exact asks_action.1 hasks
  have hanswer : ∀ a, A.act q ids = some a → w.case.next A.case a = some w.case ∧
      w.case.Repeats q.request (w.case.answer A.case w.case a) r →
      w'.case = w.case ∧ ∃ answer, w'.answers = w.answers ++ [(n, answer)] ∧ w.case.Repeats q.request answer r := by
    rintro a hact ⟨hsame, hrepeats⟩
    obtain ⟨hcase, hanswers⟩ := deliver_same hq hact hsame hn
    exact ⟨hcase, _, hanswers, hrepeats⟩
  obtain ⟨console, key, request⟩ := q
  cases request with
  | attach file version =>
    cases r with
    | attachment d => exact hanswer _ rfl (file_again hr hasks _ _)
    | _ => cases hasks
  | confirmPurchaseOrder documentId b =>
    cases r with
    | confirmation c =>
      obtain ⟨values, payload, hread, -⟩ := hasks.made
      exact hanswer _ (Option.map_eq_some_iff.2 ⟨_, hread, rfl⟩) (order_again hsha hr hasks hread _)
    | _ => cases hasks
  | confirmReceipt documentId b =>
    cases r with
    | confirmation c =>
      obtain ⟨values, payload, hread, -⟩ := hasks.made
      exact hanswer _ (Option.map_eq_some_iff.2 ⟨_, hread, rfl⟩) (receipt_again hsha hr hasks hread _)
    | _ => cases hasks
  | matchCase version =>
    cases r with
    | context x =>
      obtain ⟨run, hmem, hid⟩ := hasks
      obtain ⟨acts', hservice⟩ := service_of_steps hrun
      obtain ⟨-, hreplay, -⟩ := replayInv_of_service hservice
      exact hanswer _ rfl (run_again hr hreplay.tables.runIds hmem hid _)
    | _ => cases hasks

theorem request_repeated_resent : ∃ w w' : ConsoleWorld, w.next tapApi (.deliver 3 (tapActionIds 200)) = some w' ∧
    w'.case = w.case ∧ ∃ c, w'.answers = w.answers ++ [(3, .ok (.confirmation c))] := by
  obtain ⟨w, w', hrun, -, hnext, q, hq, -, c, hc, hreplaced⟩ := resent
  obtain ⟨hcase, answer, hanswers, hrepeats⟩ := request_repeated sha256_byteChars_injective hrun hnext hq hc
  refine ⟨w, w', hnext, hcase, c, ?_⟩
  rw [CaseWorld.Repeats, hreplaced] at hrepeats
  rw [hanswers, hrepeats]

end

end InvoiceOps
