import InvoiceOps.Cases.Sessions

/-! A case that is matched. Its last context names the active attachments and the confirmed receipts, and the run is
matched without a review case, as long as a match that ends finds the case as it was when it began, and no command
writes from a row it has loaded before the case was matched. -/

namespace InvoiceOps

open StateMachine

/-- The context names the active invoice, the active purchase order, and the confirmations of the receipts that are
not superseded, and no others. -/
structure CaseStore.RefersTo (s : CaseStore) (x : CaseContext) : Prop where
  invoice : ∃ d, s.active .invoice = some d ∧ d.id = x.invoiceAttachmentId
  order : ∃ d, s.active .purchaseOrder = some d ∧ d.id = x.purchaseOrderAttachmentId
  receipts : ∀ id, id ∈ x.receiptConfirmationIds ↔ ∃ c ∈ s.confirmations, c.id = id ∧
    ∃ d ∈ s.documents, d.id = c.caseDocumentId ∧ s.activeReceipt d = true

/-- The run is matched, and has no review case. -/
def Tables.Clears (db : Tables) (run : MatchRun) : Prop := run.decision = .matched ∧ db.reviews.casesOf run.id = []

instance (db : Tables) (run : MatchRun) : Decidable (db.Clears run) :=
  inferInstanceAs (Decidable (_ ∧ _))

/-- The last context of the case is about the case as it is, and the run it points to is matched without a review
case. -/
def SessionWorld.Settled (w : SessionWorld) : Prop :=
  ∃ x run, w.store.contexts.getLast? = some x ∧ w.store.RefersTo x.contextJson ∧
    w.world.db.storedRun x = .ok run ∧ w.world.db.Clears run

/-- The ids in the context are those that are read from the case now. -/
def CaseStore.Current (s : CaseStore) (x : CaseContext) : Prop :=
  (s.active .invoice).map (·.id) = some x.invoiceAttachmentId ∧
    (s.active .purchaseOrder).map (·.id) = some x.purchaseOrderAttachmentId ∧
    s.receiptConfirmations.map (·.id) = x.receiptConfirmationIds

instance (s : CaseStore) (x : CaseContext) : Decidable (s.Current x) :=
  inferInstanceAs (Decidable (_ ∧ _ ∧ _))

/-- The context of a match that has been called, and its run. -/
def CaseSession.result : CaseSession → Option (CaseContext × MatchRun)
  | .called _ _ context run => some (context, run)
  | _ => none

/-- The session that writes from the row it has loaded before. -/
def SessionWorld.writing (w : SessionWorld) : SessionAct → Option CaseSession
  | .attach i _ | .finish i => w.sessions i
  | _ => none

/-- The case has not been matched since the session loaded its row, and a match that clears finds the attachments
and the confirmations it has read. -/
def SessionWorld.Undisturbed (w : SessionWorld) (a : SessionAct) : Prop :=
  ∀ phase ∈ w.writing a, (w.store.case.status = .matched → ∀ row ∈ phase.row, row.status = .matched) ∧
    ∀ k ∈ phase.result, w.world.db.Clears k.2 → w.store.Current k.1

instance (w : SessionWorld) (a : SessionAct) : Decidable (w.Undisturbed a) :=
  inferInstanceAs (Decidable (∀ phase ∈ w.writing a, _))

section

variable {E : CaseEnv} {s s' : CaseStore} {w w' : SessionWorld} {a : SessionAct} {x : CaseContext} {db : Tables}
  {run : MatchRun}

theorem clears_iff : db.Clears run ↔ run.decision = .matched ∧ db.reviews.cases.find? (·.matchRunId = run.id) = none := by
  unfold Tables.Clears ReviewStore.casesOf
  rw [← List.head?_filter, List.head?_eq_none_iff]

theorem CaseStore.RefersTo.congr (h : s.RefersTo x) (hdocuments : s'.documents = s.documents)
    (hconfirmations : s'.confirmations = s.confirmations) : s'.RefersTo x := by
  obtain ⟨case, documents, confirmations, contexts, uploads, supporting⟩ := s
  obtain ⟨case', documents', confirmations', contexts', uploads', supporting'⟩ := s'
  obtain rfl : documents' = documents := hdocuments
  obtain rfl : confirmations' = confirmations := hconfirmations
  exact ⟨h.invoice, h.order, h.receipts⟩

/-- A context with the ids that are read now refers to the case. -/
theorem CaseStore.Current.refersTo (h : s.Current x) (hok : CaseOk s) : s.RefersTo x := by
  obtain ⟨hinvoice, horder, hreceipts⟩ := h
  refine ⟨Option.map_eq_some_iff.1 hinvoice, Option.map_eq_some_iff.1 horder, fun id => ?_⟩
  rw [← hreceipts, List.mem_map]
  constructor
  · rintro ⟨c, hc, hid⟩
    obtain ⟨hmem, -, d, hd, hdoc, hactive⟩ := mem_receiptConfirmations.1 hc
    exact ⟨c, hmem, hid, d, hd, hdoc, hactive⟩
  · rintro ⟨c, hc, hid, d, hd, hdoc, hactive⟩
    obtain ⟨d', hd', hdoc', htype⟩ := hok.refers c hc
    obtain rfl : d' = d := List.inj_on_of_nodup_map hok.documentIds hd' hd (hdoc'.trans hdoc.symm)
    have hrole := (Bool.and_eq_true_iff.1 hactive).1
    exact ⟨c, mem_receiptConfirmations.2 ⟨hc, htype.2 hrole, d', hd, hdoc, hactive⟩, hid⟩

end

/-- The tables come from the services, the rows are fine, a session confirms an attachment of the case with a record
of the type of its role, and the run a match has been given is stored. -/
structure SessionsInv (E : CaseEnv) (w : SessionWorld) : Prop where
  service : ∃ acts, Steps (MatchWorld.nextService E.matching) .initial acts w.world
  rows : CaseOk w.store
  confirming : ∀ i phase, w.sessions i = some phase → ∀ k ∈ phase.confirming,
    ∃ d ∈ w.store.documents, d.id = k.1 ∧ (k.2 = .goodsReceipt ↔ d.role.isReceipt = true)
  results : ∀ i phase, w.sessions i = some phase → ∀ k ∈ phase.result, k.2 ∈ w.world.db.runs

section

variable {E : CaseEnv} {s s' : CaseStore} {w w' : SessionWorld} {a : SessionAct} {db : Tables}

theorem attached_of_locked {c : AttachCommand} {loaded : PayableCase} {jobDone : Bool} {documentId attachmentId : Uuid}
    (h : s.attachLocked E db c loaded jobDone documentId attachmentId = .ok s') :
    Attached E s c { s' with case := ⟨.processing, s.case.version + 1⟩ } := by
  obtain ⟨-, documents, status, hsupersede, -, hids, rfl⟩ := attachLocked_ok h
  exact ⟨⟨rfl, rfl⟩, ⟨rfl, .inl rfl⟩, documents, documentId, attachmentId, hsupersede, hids, rfl⟩

@[simp] theorem work_store (i : ℕ) : (w.work i s).store = s := by
  unfold SessionWorld.work
  split_ifs
  · rfl
  · rfl

@[simp] theorem work_world (i : ℕ) : (w.work i s).world = w.world := by
  unfold SessionWorld.work
  split_ifs
  · rfl
  · rfl

theorem service_of_sessionMoves (h : SessionMoves E w a w') :
    ∃ acts, Steps (MatchWorld.nextService E.matching) w.world acts w'.world := by
  cases h with
  | service hworld => exact ⟨_, .single hworld⟩
  | confirm _ _ _ _ hworld => exact ⟨_, .single hworld⟩
  | called hcalls =>
    obtain ⟨-, -, hworld, -⟩ := hcalls
    exact ⟨_, .single hworld⟩
  | work => exact ⟨[], work_world (w := w) _ ▸ .nil⟩
  | _ => exact ⟨[], .nil⟩

theorem SessionsInv.rows_step (h : SessionsInv E w) (hstep : SessionMoves E w a w') : CaseOk w'.store := by
  cases hstep with
  | enter hsame => exact h.rows.congr hsame.documents hsame.confirmations
  | work _ hends =>
    rw [work_store]
    exact h.rows.congr hends.works.documents hends.works.confirmations
  | attach _ _ hs => exact (h.rows.attach (attached_of_locked hs)).congr rfl rfl
  | confirm hi hphase _ hconfirmed =>
    obtain ⟨d, hd, hid, htype⟩ := h.confirming _ _ hi _ hphase
    exact h.rows.confirm hconfirmed hd hid htype
  | finish _ _ hs =>
    obtain ⟨-, status, -, rfl⟩ := finishMatch_ok hs
    exact h.rows.congr rfl rfl
  | _ => exact h.rows

theorem SessionsInv.kept (h : SessionsInv E w) (hstep : SessionMoves E w a w') {d : CaseDocument}
    (hd : d ∈ w.store.documents) : ∃ d' ∈ w'.store.documents, d'.id = d.id ∧ d'.role = d.role := by
  have hsame : ∀ {s : CaseStore}, s.documents = w.store.documents →
      ∃ d' ∈ s.documents, d'.id = d.id ∧ d'.role = d.role := fun heq => ⟨d, heq ▸ hd, rfl, rfl⟩
  cases hstep with
  | enter hs => exact hsame hs.documents
  | work _ hends =>
    rw [work_store]
    exact hsame hends.works.documents
  | attach _ _ hs => exact (attached_of_locked hs).kept h.rows hd
  | confirm _ _ _ hconfirmed =>
    have hdocuments := congrArg CaseStore.documents hconfirmed.store
    exact hsame hdocuments
  | finish _ _ hs =>
    obtain ⟨-, status, -, rfl⟩ := finishMatch_ok hs
    exact hsame rfl
  | _ => exact hsame rfl

theorem Enters.confirming {i : ℕ} {phase : CaseSession} (h : Enters w s i phase) (hok : CaseOk w.store) :
    ∀ k ∈ phase.confirming, ∃ d ∈ w.store.documents, d.id = k.1 ∧ (k.2 = .goodsReceipt ↔ d.role.isReceipt = true) := by
  intro k hk
  cases h with
  | confirmingOrder hd =>
    obtain rfl := Option.some.inj hk
    obtain ⟨hmem, hslot⟩ := mem_of_active hd
    refine ⟨_, hmem, rfl, ?_⟩
    rw [hok.slots _ hmem _ hslot]
    simp [DocumentRole.isReceipt]
  | confirmingReceipt hd =>
    obtain rfl := Option.some.inj hk
    obtain ⟨hmem, hrole⟩ := isReceipt_of_receiptAttachment hd
    exact ⟨_, hmem, rfl, by simp [hrole]⟩
  | _ => cases hk

theorem SessionsInv.step (h : SessionsInv E w) (hstep : SessionMoves E w a w') : SessionsInv E w' := by
  obtain ⟨acts, hacts⟩ := h.service
  obtain ⟨later, hlater⟩ := service_of_sessionMoves hstep
  refine ⟨⟨_, hacts.trans hlater⟩, h.rows_step hstep, fun j p hj k hk => ?_, fun j p hj k hk => ?_⟩
  · have hbefore : ∃ d ∈ w.store.documents, d.id = k.1 ∧ (k.2 = .goodsReceipt ↔ d.role.isReceipt = true) := by
      rcases session_cases hstep hj with hold | henters | ⟨-, -, -, -⟩
      · exact h.confirming j p hold k hk
      · exact henters.confirming h.rows k hk
      · cases hk
    obtain ⟨d, hd, hid, htype⟩ := hbefore
    obtain ⟨d', hd', hid', hrole⟩ := h.kept hstep hd
    exact ⟨d', hd', hid'.trans hid, hrole ▸ htype⟩
  · rcases session_cases hstep hj with hold | henters | ⟨-, hcall, hworld, -⟩
    · exact (grows_of_service hacts hlater).runs.subset (h.results j p hold k hk)
    · cases henters with
      | _ => cases hk
    · obtain rfl := Option.some.inj hk
      obtain ⟨po, x, -, -, hcalled⟩ := called_of_callMatch hcall
      rw [db_of_call hcall hworld]
      exact hcalled.mem

theorem sessionsInv_initial : SessionsInv E .initial := by
  refine ⟨⟨[], .nil⟩, caseOk_created, fun _ _ hi => ?_, fun _ _ hi => ?_⟩
  · cases hi
  · cases hi

end

section

variable {E : CaseEnv} {s : CaseStore} {w w' : SessionWorld} {a : SessionAct}

theorem statusAfterConfirmation_ne_matched (id : Uuid) : s.statusAfterConfirmation id ≠ .matched := by
  unfold CaseStore.statusAfterConfirmation
  split
  · simp
  · split_ifs
    · simp
    · simp

theorem storedRun_of_mem {db : Tables} {x : CaseMatchContext} {run : MatchRun} (hids : (db.runs.map (·.id)).Nodup)
    (hrun : run ∈ db.runs) (hid : run.id = x.matchRunId) : db.storedRun x = .ok run := by
  simp only [Tables.storedRun, ← hid, Lists.find?_key hids hrun]

theorem SessionWorld.Settled.keep (h : w.Settled) (hinv : SessionsInv E w) (hstep : SessionMoves E w a w')
    (hdocuments : w'.store.documents = w.store.documents)
    (hconfirmations : w'.store.confirmations = w.store.confirmations)
    (hcontexts : w'.store.contexts = w.store.contexts) : w'.Settled := by
  obtain ⟨x, run, hlast, hrefers, hstored, hmatched, hnone⟩ := h
  obtain ⟨acts, hacts⟩ := hinv.service
  obtain ⟨later, hlater⟩ := service_of_sessionMoves hstep
  obtain ⟨hrun, hid⟩ := storedRun_ok hstored
  obtain ⟨-, hreplay, -⟩ := replayInv_of_service (hacts.trans hlater)
  refine ⟨x, run, hcontexts ▸ hlast, hrefers.congr hdocuments hconfirmations, ?_, hmatched, ?_⟩
  · exact storedRun_of_mem hreplay.tables.runIds ((grows_of_service hacts hlater).runs.subset hrun) hid
  · exact casesOf_of_service hacts hlater hrun hnone

/-- The status a session writes over a row that may have changed: the case is matched when it was before, or when
the session says so. -/
theorem status_write {stored loaded : PayableCase} {status : CaseStatus}
    (h : (stored.write loaded status).status = .matched) :
    status = .matched ∨ status = loaded.status ∧ stored.status = .matched := by
  simp only [PayableCase.write] at h
  split_ifs at h with hsame
  · exact .inr ⟨hsame, h⟩
  · exact .inl h

/-- A session that is not disturbed does not leave a matched case matched unless it matches it. -/
theorem status_of_undisturbed {loaded : Option PayableCase} {status : CaseStatus}
    (hC : s.case.status = .matched → ∀ row ∈ loaded, row.status = .matched)
    (h : (s.case.write (loaded.getD s.case) status).status = .matched) : status = .matched := by
  rcases status_write h with hstatus | ⟨hsame, hstored⟩
  · exact hstatus
  · cases loaded with
    | none => exact hsame.trans hstored
    | some row => exact hsame.trans (hC hstored row rfl)

theorem settled_step (hinv : SessionsInv E w) (hC : w.Undisturbed a) (hstep : SessionMoves E w a w')
    (h : w.store.case.status = .matched → w.Settled) (hmatched : w'.store.case.status = .matched) : w'.Settled := by
  have hmoves := hstep
  cases hstep with
  | service => exact (h hmatched).keep hinv hmoves rfl rfl rfl
  | refused => exact h hmatched
  | leave => exact (h hmatched).keep hinv hmoves rfl rfl rfl
  | enter hsame =>
    rw [hsame.case] at hmatched
    exact (h hmatched).keep hinv hmoves hsame.documents hsame.confirmations hsame.contexts
  | called => exact (h hmatched).keep hinv hmoves rfl rfl rfl
  | work _ hends =>
    have hworks := hends.works
    rw [work_store] at hmatched
    rcases hworks.case with hcase | ⟨-, hother | hother⟩
    · refine (h (hcase ▸ hmatched)).keep hinv hmoves ?_ ?_ ?_
      · rw [work_store, hworks.documents]
      · rw [work_store, hworks.confirmations]
      · rw [work_store, hworks.contexts]
    · rw [hother] at hmatched
      cases hmatched
    · rw [hother] at hmatched
      cases hmatched
  | @attach i attachmentId documentId c row jobDone s ha hi hs =>
    obtain ⟨-, documents, status, -, hstatus, -, rfl⟩ := attachLocked_ok hs
    obtain ⟨hrow, -⟩ := hC _ (by rw [ha]; exact hi)
    rcases attachStatus_cases hstatus with hother | hother
    · exact absurd (hother.symm.trans (status_of_undisturbed hrow hmatched)) (by simp)
    · exact absurd (hother.symm.trans (status_of_undisturbed hrow hmatched)) (by simp)
  | confirm _ _ _ hconfirmed =>
    have hstatus := congrArg (fun s => s.case.status) hconfirmed.store
    exact absurd (hstatus.symm.trans hmatched) (statusAfterConfirmation_ne_matched _)
  | @finish i c row context run s ha hi hs =>
    obtain ⟨-, status, hstatus, rfl⟩ := finishMatch_ok hs
    obtain ⟨hrow, hcurrent⟩ := hC _ (by rw [ha]; exact hi)
    rw [status_of_undisturbed hrow hmatched] at hstatus
    have hclears : w.world.db.Clears run := by
      by_contra hnot
      rw [clears_iff] at hnot
      rw [if_neg hnot] at hstatus
      cases hstatus
    obtain ⟨acts, hacts⟩ := hinv.service
    obtain ⟨-, hreplay, -⟩ := replayInv_of_service hacts
    refine ⟨⟨run.id, context, c.idempotencyKey, E.fingerprint context.json⟩, run, List.getLast?_concat, ?_, ?_, hclears⟩
    · exact ((hcurrent (context, run) rfl hclears).refersTo hinv.rows).congr rfl rfl
    · exact storedRun_of_mem hreplay.tables.runIds (hinv.results i _ hi _ rfl) rfl

end

/-- As long as no command is disturbed: over every interleaving of the transactions of commands and workers, a case is
matched only if its last context names the active attachments and exactly the confirmations of the receipts that
are not superseded, and points to a run that is matched without a review case. -/
theorem matched_settled (E : CaseEnv) {acts : List SessionAct} {w : SessionWorld}
    (h : Steps (restrict SessionWorld.Undisturbed (SessionWorld.next E)) .initial acts w)
    (hmatched : w.store.case.status = .matched) : w.Settled := by
  have hinv : SessionsInv E w ∧ (w.store.case.status = .matched → w.Settled) := by
    refine h.invariant (I := fun w => SessionsInv E w ∧ (w.store.case.status = .matched → w.Settled)) ?_
      ⟨sessionsInv_initial, fun hmatched => ?_⟩
    · intro s a t hs hn
      obtain ⟨hC, hn⟩ := restrict_eq_some.1 hn
      have hmoves := sessionMoves_of_next hn
      exact ⟨hs.1.step hmoves, settled_step hs.1 hC hmoves hs.2⟩
    · cases hmatched
  exact hinv.2 hmatched

theorem matched_settled_tap : ∃ w,
    Steps (restrict SessionWorld.Undisturbed (SessionWorld.next tapCaseEnv)) .initial tapSessionActs w ∧
    w.store.case.status = .matched ∧ w.Settled := by
  have hexec : (exec (restrict SessionWorld.Undisturbed (SessionWorld.next tapCaseEnv)) .initial tapSessionActs).any
      (fun w => w.store.case.status = .matched) = true := by
    decide +kernel
  obtain ⟨w, hw, hexec⟩ := (Option.any_eq_true _ _).1 hexec
  have hmatched := of_decide_eq_true hexec
  exact ⟨w, .of_exec hw, hmatched, matched_settled tapCaseEnv (.of_exec hw) hmatched⟩

/-- While the matching service works, another client replaces the purchase order. -/
def replacedOrderActs : List SessionAct :=
  tapCaseActs.flatMap CaseAct.alone ++
    [.plan 0 ⟨9, "match"⟩, .call 0 (tapFresh 20) false,
      .load 1 ⟨.purchaseOrder, "attach 300", 9, "300", some (Uuid.ofNat 101)⟩, .ingest 1 (Uuid.ofNat 300) false,
      .attach 1 (Uuid.ofNat 301), .finish 0]

/-- The case is matched with the purchase order that has been replaced. -/
theorem replacedOrder_not_settled : ∃ w, Steps (SessionWorld.next tapCaseEnv) .initial replacedOrderActs w ∧
    w.store.case.status = .matched ∧ ¬ w.Settled := by
  have hexec : (exec (SessionWorld.next tapCaseEnv) .initial replacedOrderActs).any (fun w =>
      w.store.case.status = .matched ∧ ∀ x ∈ w.store.contexts.getLast?, ∀ d ∈ w.store.active .purchaseOrder,
        d.id ≠ x.contextJson.purchaseOrderAttachmentId) = true := by
    decide +kernel
  obtain ⟨w, hw, hexec⟩ := (Option.any_eq_true _ _).1 hexec
  obtain ⟨hmatched, horder⟩ := of_decide_eq_true hexec
  refine ⟨w, .of_exec hw, hmatched, ?_⟩
  rintro ⟨x, run, hlast, hrefers, -⟩
  obtain ⟨d, hd, hid⟩ := hrefers.order
  exact horder x hlast d hd hid

end InvoiceOps
