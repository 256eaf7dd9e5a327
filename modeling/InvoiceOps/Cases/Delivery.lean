import InvoiceOps.Cases.Outcomes

/-! The jobs of a case and the messages that ask for them. `attach` reads the job of the invoice before it commits,
`run_job` looks for attachments before it commits, and a message for a job that has succeeded is dropped. When both
have read before the other commits, the case stays in processing with nothing left to move it. -/

namespace InvoiceOps

open StateMachine

/-- The case with the messages in flight, each for the job of a document. -/
structure QueuedWorld where
  world : SessionWorld
  messages : List Uuid

def QueuedWorld.initial : QueuedWorld := ⟨.initial, []⟩

inductive QueuedAct
  /-- A step of a request or a worker; the queue may refuse the message it sends. -/
  | step (a : SessionAct) (sent : Bool)
  /-- Another request for the document, or a worker that has to try again, sends a message. -/
  | enqueue (documentId : Uuid)
  /-- A message is delivered, and delivered again as long as it is not acknowledged. -/
  | deliver (i : ℕ) (documentId : Uuid) (acknowledged : Bool)

section

variable (E : CaseEnv)

/-- The message `attach` sends when it has committed: an invoice that has not been extracted is to be processed. -/
def SessionWorld.sends (w : SessionWorld) : SessionAct → List Uuid
  | .attach i attachmentId =>
    match w.sessions i with
    | some (.ingested c row jobDone documentId) =>
      match w.store.attachLocked E w.world.db c (row.getD w.store.case) jobDone documentId attachmentId with
      | .ok _ => if c.role = .invoice ∧ c.alreadyExtracted w.world.db jobDone documentId = false then [documentId] else []
      | .error _ => []
    | _ => []
  | _ => []

def QueuedWorld.next (q : QueuedWorld) : QueuedAct → Option QueuedWorld
  | .step a sent => (q.world.next E a).map fun world =>
      ⟨world, if sent = true then q.messages ++ q.world.sends E a else q.messages⟩
  | .enqueue documentId => some { q with messages := q.messages ++ [documentId] }
  | .deliver i documentId acknowledged =>
    if documentId ∈ q.messages then
      (q.world.next E (.getJob i documentId)).map fun world =>
        ⟨world, if acknowledged = true then q.messages.erase documentId else q.messages⟩
    else none

end

def QueuedWorld.Quiescent (q : QueuedWorld) : Prop := q.messages = [] ∧ ∀ i, q.world.sessions i = none

/-- The only attachment of the case is an active invoice whose job has succeeded with a current extraction. -/
def SessionWorld.Extracted (w : SessionWorld) : Prop :=
  ∃ d, w.store.documents = [d] ∧ d.activeSlot = some .invoice ∧ w.store.jobDone d.documentId = true ∧
    (w.world.db.currentExtraction d.documentId).isSome

/-- The first attachment of the case is made with an old state of its job: it has succeeded since. -/
def CaseStore.missesJob (s : CaseStore) : CaseSession → Bool
  | .ingested c _ jobDone documentId =>
    decide (c.role = .invoice) && s.documents.isEmpty && !jobDone && s.jobDone documentId
  | _ => false

/-- A job has not seen the only attachment of a case in processing: it has been attached since. -/
def CaseStore.missesAttachment (s : CaseStore) : CaseSession → Bool
  | .extracting documentId _ active =>
    !active && s.invoiceActive documentId && decide (s.documents.length = 1) && decide (s.case.status = .processing)
  | _ => false

/-- The step commits what the other side should have seen, and has not seen it. -/
def SessionWorld.crosses (w : SessionWorld) : SessionAct → Bool
  | .attach i _ => (w.sessions i).any w.store.missesJob
  | .endJob i true => (w.sessions i).any w.store.missesAttachment
  | _ => false

def QueuedWorld.crosses (q : QueuedWorld) : QueuedAct → Bool
  | .step a _ => q.world.crosses a
  | _ => false

/-- No step commits on a read that has been overtaken. -/
def QueuedWorld.InTime (q : QueuedWorld) (a : QueuedAct) : Prop := q.crosses a = false

instance (q : QueuedWorld) (a : QueuedAct) : Decidable (q.InTime a) :=
  inferInstanceAs (Decidable (_ = _))

section

variable {E : CaseEnv} {s s' : CaseStore} {w w' : SessionWorld} {a : SessionAct} {id documentId : Uuid}

theorem jobDone_congr (h : s'.uploads = s.uploads) : s'.jobDone id = s.jobDone id := by
  unfold CaseStore.jobDone
  rw [h]

theorem jobDone_of_setJob {loaded status : JobStatus} (h : (s.setJob documentId loaded status).jobDone id = true) :
    s.jobDone id = true ∨ id = documentId ∧ status = .succeeded := by
  have hid : ∀ u : Document, (u.withJob documentId loaded status).id = u.id := by
    intro u
    unfold Document.withJob
    split_ifs
    · rfl
    · rfl
  simp only [CaseStore.jobDone, CaseStore.setJob, List.find?_map, Function.comp_def, hid, Option.any_map] at h ⊢
  obtain ⟨u, hu, hdone⟩ := (Option.any_eq_true _ _).1 h
  unfold Document.withJob at hdone
  split_ifs at hdone with hjob
  · have hfound : u.id = id := by simpa using List.find?_some hu
    exact .inr ⟨hfound.symm.trans hjob.1, by simpa using hdone⟩
  · rw [hu]
    exact .inl hdone

theorem jobDone_of_sameCase (hsame : SameCase s s') (h : s'.jobDone id = true) : s.jobDone id = true := by
  rcases hsame.uploads with heq | ⟨u, -, hqueued, heq⟩ | ⟨documentId, loaded, heq⟩
  · rwa [jobDone_congr heq] at h
  · simp only [CaseStore.jobDone, heq, List.find?_append] at h ⊢
    cases hfind : s.uploads.find? (·.id = id) with
    | some u' =>
      rw [hfind, Option.some_or] at h
      exact h
    | none =>
      rw [hfind, Option.none_or] at h
      obtain ⟨u', hu', hdone⟩ := (Option.any_eq_true _ _).1 h
      obtain rfl : u' = u := List.mem_singleton.1 (List.mem_of_find?_eq_some hu')
      simp [hqueued] at hdone
  · have hset : s'.jobDone id = (s.setJob documentId loaded .processing).jobDone id := jobDone_congr heq
    rcases jobDone_of_setJob (hset ▸ h) with hold | ⟨-, hstatus⟩
    · exact hold
    · cases hstatus

theorem jobDone_ite {p : Prop} [Decidable p] {status : CaseStatus} :
    (if p then s.setStatus status else s).jobDone id = s.jobDone id := by
  split_ifs
  · rfl
  · rfl

/-- A job that has succeeded had succeeded before, or `run_job` ends. -/
theorem jobDone_of_ends {i : ℕ} {phase : CaseSession} (h : WorkerEnds w a i phase s) (hdone : s.jobDone id = true) :
    w.store.jobDone id = true ∨ ∃ loaded active, a = .endJob i true ∧ phase = .extracting id loaded active ∧
      s = w.store.jobSucceeded id active ∧ (w.world.db.currentExtraction id).isSome := by
  cases h with
  | @succeeded documentId loaded active ha hextracted =>
    rw [CaseStore.jobSucceeded, jobDone_ite] at hdone
    rcases jobDone_of_setJob hdone with hold | ⟨rfl, -⟩
    · exact .inl hold
    · exact .inr ⟨loaded, active, ha, rfl, rfl, hextracted⟩
  | failed =>
    rw [CaseStore.jobFailed, jobDone_ite] at hdone
    exact .inl ((jobDone_of_setJob hdone).resolve_right (by simp))
  | retried => exact .inl ((jobDone_of_setJob hdone).resolve_right (by simp))
  | @support d r outcome =>
    cases outcome with
    | succeeded =>
      have hsame : (w.store.supportSucceeded d r).jobDone id = w.store.jobDone id := jobDone_ite
      exact .inl (hsame.symm.trans hdone)
    | failed => exact .inl hdone
    | marked =>
      have hsame : (w.store.supportMarked d r).jobDone id = w.store.jobDone id := jobDone_ite
      exact .inl (hsame.symm.trans hdone)

theorem jobDone_of_moves (h : SessionMoves E w a w') (hdone : w'.store.jobDone id = true) :
    w.store.jobDone id = true ∨ ∃ i loaded active, a = .endJob i true ∧
      w.sessions i = some (.extracting id loaded active) ∧ w'.store = w.store.jobSucceeded id active ∧
      (w.world.db.currentExtraction id).isSome := by
  cases h with
  | enter hsame => exact .inl (jobDone_of_sameCase hsame hdone)
  | work hi hends =>
    rw [work_store] at hdone ⊢
    rcases jobDone_of_ends hends hdone with hold | ⟨loaded, active, ha, rfl, hs, hextracted⟩
    · exact .inl hold
    · exact .inr ⟨_, loaded, active, ha, hi, hs, hextracted⟩
  | confirm _ _ _ hconfirmed =>
    have huploads := congrArg CaseStore.uploads hconfirmed.store
    exact .inl ((jobDone_congr huploads).symm.trans hdone)
  | finish _ _ hs =>
    obtain ⟨-, status, -, rfl⟩ := finishMatch_ok hs
    exact .inl hdone
  | attach _ _ hs =>
    obtain ⟨-, documents, status, -, -, -, rfl⟩ := attachLocked_ok hs
    exact .inl hdone
  | _ => exact .inl hdone

/-- A case that is in processing was so before, with the same attachments, or an attachment has been committed. -/
theorem processing_of_moves (h : SessionMoves E w a w') (hprocessing : w'.store.case.status = .processing) :
    w.store.case.status = .processing ∧ w'.store.documents = w.store.documents ∨
      ∃ i attachmentId documentId c row jobDone, a = .attach i attachmentId ∧
        w.sessions i = some (.ingested c row jobDone documentId) ∧
        w.store.attachLocked E w.world.db c (row.getD w.store.case) jobDone documentId attachmentId = .ok w'.store := by
  cases h with
  | enter hsame => exact .inl ⟨hsame.case ▸ hprocessing, hsame.documents⟩
  | work _ hends =>
    rw [work_store] at hprocessing ⊢
    rcases hends.works.case with hsame | ⟨-, hstatus | hstatus⟩
    · exact .inl ⟨hsame ▸ hprocessing, hends.works.documents⟩
    · rw [hstatus] at hprocessing
      cases hprocessing
    · rw [hstatus] at hprocessing
      cases hprocessing
  | @confirm i phase p s b world version _ _ _ hconfirmed =>
    have hstatus := congrArg (fun s => s.case.status) hconfirmed.store
    have hnot : w.store.statusAfterConfirmation p.caseDocumentId = .processing := hstatus.symm.trans hprocessing
    unfold CaseStore.statusAfterConfirmation at hnot
    split at hnot
    · cases hnot
    · split_ifs at hnot
  | @finish i c row context run s _ _ hs =>
    obtain ⟨-, status, hstatus, rfl⟩ := finishMatch_ok hs
    have hne : status ≠ .processing := by
      rw [hstatus]
      split_ifs
      · simp
      · simp
    have hwrite : (w.store.case.write (row.getD w.store.case) status).status = .processing := hprocessing
    unfold PayableCase.write at hwrite
    dsimp only at hwrite
    split_ifs at hwrite
    · exact .inl ⟨hwrite, rfl⟩
    · exact absurd hwrite hne
  | @attach i attachmentId documentId c row jobDone s ha hi hs =>
    exact .inr ⟨i, attachmentId, documentId, c, row, jobDone, ha, hi, hs⟩
  | _ => exact .inl ⟨hprocessing, rfl⟩

end

/-- A job that has succeeded has an extraction; a case without attachments is not in processing, and neither is one
whose only attachment is an active invoice with such a job. -/
structure DeliveryInv (E : CaseEnv) (w : SessionWorld) : Prop where
  attached : AttachInv E w
  extracted : ∀ id, w.store.jobDone id = true → (w.world.db.currentExtraction id).isSome
  empty : w.store.documents = [] → w.store.case.status ≠ .processing
  single : ∀ d, w.store.documents = [d] → d.activeSlot = some .invoice → w.store.jobDone d.documentId = true →
    w.store.case.status ≠ .processing

section

variable {E : CaseEnv} {w w' : SessionWorld} {a : SessionAct}

theorem DeliveryInv.extracted_step (h : DeliveryInv E w) (hstep : SessionMoves E w a w') (id : Uuid)
    (hdone : w'.store.jobDone id = true) : (w'.world.db.currentExtraction id).isSome := by
  have hbefore : (w.world.db.currentExtraction id).isSome := by
    rcases jobDone_of_moves hstep hdone with hold | ⟨i, loaded, active, -, -, -, hextracted⟩
    · exact h.extracted id hold
    · exact hextracted
  obtain ⟨acts, hacts⟩ := h.attached.sessions.service
  obtain ⟨later, hlater⟩ := service_of_sessionMoves hstep
  rw [currentExtraction_isSome] at hbefore ⊢
  obtain ⟨x, hx, hid⟩ := hbefore
  exact ⟨x, subset_of_service (fun _ _ _ hmoves => (keepsRecords_of_moves hmoves).extractions) hacts hlater hx, hid⟩

theorem DeliveryInv.single_of_job (h : DeliveryInv E w) (hstep : SessionMoves E w a w') (hC : w.crosses a = false)
    {d : CaseDocument} (hd : w.store.documents = [d]) (hslot : d.activeSlot = some .invoice)
    (hdone : w'.store.jobDone d.documentId = true) (hprocessing : w.store.case.status = .processing) :
    w'.store.case.status ≠ .processing := by
  rcases jobDone_of_moves hstep hdone with hold | ⟨i, loaded, active, ha, hi, hs, -⟩
  · exact absurd hprocessing (h.single d hd hslot hold)
  · have hactive : active = true := by
      by_contra hnot
      have hinvoice : w.store.invoiceActive d.documentId = true := by
        simp [CaseStore.invoiceActive, hd, hslot]
      simp [ha, SessionWorld.crosses, hi, CaseStore.missesAttachment, hinvoice, hd, hprocessing, hnot] at hC
    rw [hs, CaseStore.jobSucceeded, if_pos ⟨hactive, hprocessing⟩]
    simp [CaseStore.setStatus]

theorem DeliveryInv.single_of_attach (h : DeliveryInv E w) {i : ℕ} {attachmentId documentId : Uuid} {c : AttachCommand}
    {row : Option PayableCase} {jobDone : Bool} {s : CaseStore} (hC : w.crosses (.attach i attachmentId) = false)
    (hi : w.sessions i = some (.ingested c row jobDone documentId))
    (hs : w.store.attachLocked E w.world.db c (row.getD w.store.case) jobDone documentId attachmentId = .ok s)
    {d : CaseDocument} (hd : s.documents = [d]) (hslot : d.activeSlot = some .invoice)
    (hdone : s.jobDone d.documentId = true) : s.case.status ≠ .processing := by
  obtain ⟨-, documents, status, hsupersede, hstatus, -, rfl⟩ := attachLocked_ok hs
  obtain ⟨rfl, -⟩ := h.attached.attached.supersede h.attached.sessions.rows hsupersede
  obtain ⟨hnil, hnew⟩ := List.append_eq_singleton_iff.1 hd |>.resolve_right (by simp)
  have hempty : w.store.documents = [] := List.map_eq_nil_iff.1 hnil
  obtain rfl := List.singleton_inj.1 hnew
  have hrole : c.role = .invoice := (slot_eq hslot).symm
  have hread : jobDone = true := by
    by_contra hnot
    have hdone' : w.store.jobDone documentId = true := hdone
    simp [SessionWorld.crosses, hi, CaseStore.missesJob, hrole, hempty, hdone', hnot] at hC
  have hextracted : c.alreadyExtracted w.world.db jobDone documentId = true := by
    simp [AttachCommand.alreadyExtracted, hrole, hread, h.extracted documentId hdone]
  rw [hextracted, if_pos rfl] at hstatus
  intro hprocessing
  have hwrite : (w.store.case.write (row.getD w.store.case) status).status = .processing := hprocessing
  unfold PayableCase.write at hwrite
  dsimp only at hwrite
  split_ifs at hwrite
  · exact h.empty hempty hwrite
  · rw [hstatus] at hwrite
    cases hwrite

theorem DeliveryInv.step (h : DeliveryInv E w) (hstep : SessionMoves E w a w') (hC : w.crosses a = false) :
    DeliveryInv E w' := by
  refine ⟨h.attached.step hstep, h.extracted_step hstep, fun hempty hprocessing => ?_, fun d hd hslot hdone hprocessing => ?_⟩
  · rcases processing_of_moves hstep hprocessing with ⟨hold, hsame⟩ | ⟨i, _, _, c, row, jobDone, -, -, hs⟩
    · exact h.empty (hsame ▸ hempty) hold
    · obtain ⟨-, documents, status, -, -, -, heq⟩ := attachLocked_ok hs
      rw [heq] at hempty
      simp at hempty
  · rcases processing_of_moves hstep hprocessing with ⟨hold, hsame⟩ | ⟨i, _, _, c, row, jobDone, rfl, hi, hs⟩
    · exact h.single_of_job hstep hC (hsame ▸ hd) hslot hdone hold hprocessing
    · exact h.single_of_attach hC hi hs hd hslot hdone hprocessing

theorem deliveryInv_initial : DeliveryInv E .initial := by
  refine ⟨attachInv_of_run .nil, fun id hdone => ?_, fun _ hprocessing => ?_, fun d hd => ?_⟩
  · cases hdone
  · cases hprocessing
  · cases hd

end

/-- As long as no step commits on a read that has been overtaken: over every interleaving of requests, workers and
deliveries, a case whose only attachment is an active invoice whose job has succeeded with a current extraction is not
in processing, be there workers or messages left or not. -/
theorem extracted_not_stranded (E : CaseEnv) {acts : List QueuedAct} {q : QueuedWorld}
    (h : Steps (restrict QueuedWorld.InTime (QueuedWorld.next E)) .initial acts q) (hextracted : q.world.Extracted) :
    q.world.store.case.status ≠ .processing := by
  have hinv : DeliveryInv E q.world := by
    refine h.invariant (I := fun q => DeliveryInv E q.world) (fun q a q' hq hn => ?_) deliveryInv_initial
    obtain ⟨hC, hn⟩ := restrict_eq_some.1 hn
    cases a with
    | step a sent =>
      obtain ⟨world, hworld, rfl⟩ := Option.map_eq_some_iff.1 hn
      exact hq.step (sessionMoves_of_next hworld) hC
    | enqueue documentId => exact Option.some.inj hn ▸ hq
    | deliver i documentId acknowledged =>
      simp only [QueuedWorld.next] at hn
      split at hn
      · obtain ⟨world, hworld, rfl⟩ := Option.map_eq_some_iff.1 hn
        exact hq.step (sessionMoves_of_next hworld) rfl
      · cases hn
  obtain ⟨d, hd, hslot, hdone, -⟩ := hextracted
  exact hinv.single d hd hslot hdone

def QueuedAct.session : QueuedAct → Option ℕ
  | .step a _ => a.session
  | .deliver i _ _ => some i
  | .enqueue _ => none

theorem idle_of_steps {E : CaseEnv} {acts : List QueuedAct} {q : QueuedWorld} {j : ℕ}
    (h : Steps (QueuedWorld.next E) .initial acts q) (hj : ∀ a ∈ acts, a.session ≠ some j) : q.world.sessions j = none := by
  have hmoves : ∀ {w w' : SessionWorld} {a : SessionAct}, w.next E a = some w' → a.session ≠ some j →
      w.sessions j = none → w'.sessions j = none := by
    intro w w' a hn ha hw
    rcases sessions_of_moves (sessionMoves_of_next hn) with hsame | ⟨i, phase, hi, hsame⟩
    · rw [hsame, hw]
    · rw [hsame, Function.update_of_ne, hw]
      rintro rfl
      exact ha hi
  induction h with
  | nil => rfl
  | @snoc acts q a q' _ hn ih =>
    have hidle := ih fun b hb => hj b (List.mem_append_left _ hb)
    have ha := hj a (List.mem_append_right _ (List.mem_singleton_self a))
    cases a with
    | step b sent =>
      obtain ⟨world, hworld, rfl⟩ := Option.map_eq_some_iff.1 hn
      exact hmoves hworld ha hidle
    | enqueue documentId => exact Option.some.inj hn ▸ hidle
    | deliver i documentId acknowledged =>
      simp only [QueuedWorld.next] at hn
      split at hn
      · obtain ⟨world, hworld, rfl⟩ := Option.map_eq_some_iff.1 hn
        exact hmoves hworld ha hidle
      · cases hn

/-- The only attachment is the invoice `4`, its job has succeeded, and no message is in flight. -/
def QueuedWorld.billed (q : QueuedWorld) : Bool :=
  q.messages.isEmpty && (q.world.store.documents.map fun d => (d.documentId, d.activeSlot)) == [(Uuid.ofNat 4, some .invoice)] &&
    q.world.store.jobDone (Uuid.ofNat 4) && (q.world.world.db.currentExtraction (Uuid.ofNat 4)).isSome

theorem extracted_of_billed {q : QueuedWorld} (h : q.billed = true) : q.messages = [] ∧ q.world.Extracted := by
  simp only [QueuedWorld.billed, Bool.and_eq_true, List.isEmpty_iff, beq_iff_eq] at h
  obtain ⟨⟨⟨hmessages, hdocuments⟩, hdone⟩, hextracted⟩ := h
  obtain ⟨d, hd, heq⟩ := List.map_eq_singleton_iff.1 hdocuments
  obtain ⟨hid, hslot⟩ := Prod.mk.inj heq
  exact ⟨hmessages, d, hd, hslot, hid ▸ hdone, hid ▸ hextracted⟩

/-- The invoice is uploaded; session `0` has still to attach it. -/
def billActs : List QueuedAct :=
  [.step (.load 0 ⟨.invoice, "attach 4", 1, "4", none⟩) true, .step (.ingest 0 (Uuid.ofNat 4) false) true]

/-- The message for the invoice is delivered to worker `1`, and its job succeeds. -/
def workActs : List QueuedAct :=
  [.deliver 1 (Uuid.ofNat 4) true, .step (.startJob 1) true,
    .step (.service (.act (.extract (tapExtraction 5 4)))) true, .step (.readJob 1) true,
    .step (.endJob 1 true) true]

/-- Sessions `0` and `1` are idle, and the others have taken no step. -/
theorem quiescent_of_steps {E : CaseEnv} {acts : List QueuedAct} {q : QueuedWorld}
    (h : Steps (QueuedWorld.next E) .initial acts q) (hacts : ∀ a ∈ acts, ∀ i ∈ a.session, i < 2)
    (hmessages : q.messages = []) (hidle : ∀ i < 2, q.world.sessions i = none) : q.Quiescent := by
  refine ⟨hmessages, fun i => ?_⟩
  by_cases hi : i < 2
  · exact hidle i hi
  · exact idle_of_steps h fun a ha hsession => hi (hacts a ha i hsession)

def billedActs : List QueuedAct := billActs ++ [.step (.attach 0 (Uuid.ofNat 5)) true] ++ workActs

theorem extracted_not_stranded_billed : ∃ q,
    Steps (restrict QueuedWorld.InTime (QueuedWorld.next tapCaseEnv)) .initial billedActs q ∧
    q.Quiescent ∧ q.world.Extracted ∧ q.world.store.case.status ≠ .processing := by
  have hexec : (exec (restrict QueuedWorld.InTime (QueuedWorld.next tapCaseEnv)) .initial billedActs).any (fun q =>
      q.billed = true ∧ ∀ i < 2, (q.world.sessions i).isNone = true) = true := by
    decide +kernel
  obtain ⟨q, hq, hexec⟩ := (Option.any_eq_true _ _).1 hexec
  obtain ⟨hbilled, hidle⟩ := of_decide_eq_true hexec
  obtain ⟨hmessages, hextracted⟩ := extracted_of_billed hbilled
  have hquiescent : q.Quiescent := by
    refine quiescent_of_steps (Steps.of_exec hq).of_restrict (by decide) hmessages fun i hi => ?_
    exact Option.isNone_iff_eq_none.1 (hidle i hi)
  exact ⟨q, .of_exec hq, hquiescent, hextracted,
    extracted_not_stranded tapCaseEnv (.of_exec hq) hextracted⟩

/-- The job of the invoice succeeds for another request, after session `0` has read it and before it attaches the
invoice; the message of session `0` is dropped. -/
def strandedActs : List QueuedAct :=
  billActs ++ [.enqueue (Uuid.ofNat 4)] ++ workActs ++
    [.step (.attach 0 (Uuid.ofNat 5)) true, .deliver 1 (Uuid.ofNat 4) true]

theorem extracted_stranded : ∃ q, Steps (QueuedWorld.next tapCaseEnv) .initial strandedActs q ∧
    q.Quiescent ∧ q.world.Extracted ∧ q.world.store.case.status = .processing := by
  have hexec : (exec (QueuedWorld.next tapCaseEnv) .initial strandedActs).any (fun q =>
      q.billed = true ∧ (∀ i < 2, (q.world.sessions i).isNone = true) ∧ q.world.store.case.status = .processing) = true := by
    decide +kernel
  obtain ⟨q, hq, hexec⟩ := (Option.any_eq_true _ _).1 hexec
  obtain ⟨hbilled, hidle, hprocessing⟩ := of_decide_eq_true hexec
  obtain ⟨hmessages, hextracted⟩ := extracted_of_billed hbilled
  refine ⟨q, .of_exec hq, ?_, hextracted, hprocessing⟩
  refine quiescent_of_steps (.of_exec hq) (by decide) hmessages fun i hi => ?_
  exact Option.isNone_iff_eq_none.1 (hidle i hi)

end InvoiceOps
