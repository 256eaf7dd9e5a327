import InvoiceOps.Cases.Attachments

/-! What the outcome of a worker does to the case. A worker looks at its attachment before it has the row of the case,
and the attachment may be superseded in the meantime. The outcome moves the case then, unless the worker has seen
the supersession, or the case has a status that the outcome does not move. -/

namespace InvoiceOps

open StateMachine

def SessionAct.worker : SessionAct → Option ℕ
  | .endJob i _ | .endSupport i _ _ => some i
  | _ => none

/-- The attachments of the case that a session has processed. -/
def CaseStore.processedBy (s : CaseStore) : CaseSession → List CaseDocument
  | .extracting documentId _ _ => s.documents.filter fun d => d.documentId = documentId ∧ d.role = .invoice
  | .supporting d => s.documents.filter (·.id = d.id)
  | _ => []

/-- The attachments of the case that the worker that ends has processed. -/
def SessionWorld.processed (w : SessionWorld) (a : SessionAct) : List CaseDocument :=
  ((a.worker.bind w.sessions).map w.store.processedBy).getD []

/-- What a worker has read of its attachment: it is active. For a receipt it asks under the lock. -/
def CaseSession.readActive : CaseSession → Bool
  | .extracting _ _ active => active
  | .supporting d => decide (d.role = .purchaseOrder) && decide (d.activeSlot = some .purchaseOrder)
  | _ => false

/-- The outcome depends on the attachment being active. A supporting document that cannot be extracted fails the
case without asking. -/
def SessionAct.asksActive : SessionAct → Bool
  | .endSupport _ _ .failed => false
  | _ => true

def SessionAct.movesFrom : SessionAct → CaseStatus → Bool
  | .endJob _ true, status => decide (status = .processing)
  | .endSupport _ _ .succeeded, status => decide (status = .processing) || decide (status = .failed)
  | .endJob _ false, status | .endSupport _ _ .marked, status => decide (status ≠ .failed)
  | .endSupport _ _ .failed, _ => true
  | _, _ => false

/-- The outcome for an attachment that has been superseded asks whether it is active, and the worker has seen that it
is not, or the outcome does not move the case as it is. -/
def SessionWorld.Notices (w : SessionWorld) (a : SessionAct) : Prop :=
  ∀ d ∈ w.processed a, w.store.hasSuccessor d.id = true → a.asksActive = true ∧
    ∀ phase ∈ a.worker.bind w.sessions, phase.readActive = true → a.movesFrom w.store.case.status = false

instance (w : SessionWorld) (a : SessionAct) : Decidable (w.Notices a) :=
  inferInstanceAs (Decidable (∀ d ∈ w.processed a, _))

section

variable {E : CaseEnv} {s : CaseStore} {w w' : SessionWorld} {a : SessionAct} {i : ℕ} {phase : CaseSession}

theorem ends_of_next (hn : w.next E a = some w') (ha : a.worker = some i) :
    ∃ phase s, w.sessions i = some phase ∧ WorkerEnds w a i phase s ∧ w' = w.work i s := by
  cases a with
  | endJob j succeeded =>
    obtain rfl := Option.some.inj ha
    exact ends_of_endJob hn
  | endSupport j r outcome =>
    obtain rfl := Option.some.inj ha
    simp only [SessionWorld.next] at hn
    split_ifs at hn
    exact ends_of_endSupport hn
  | _ => cases ha

/-- The attachment counts as active when the worker ends. -/
def CaseStore.countsActive (s : CaseStore) : CaseSession → Bool
  | .extracting _ _ active => active
  | .supporting d => s.isActive d
  | _ => false

theorem setStatus_case {s t : CaseStore} {status : CaseStatus} (h : t.case = s.case) :
    (t.setStatus status).case ≠ s.case := by
  intro heq
  have hversion := congrArg PayableCase.version (heq.trans h.symm)
  simp [CaseStore.setStatus] at hversion

theorem case_of_ite {active : Bool} {p : Prop} [Decidable p] {s t : CaseStore} {status : CaseStatus}
    (h : t.case = s.case) : (if active = true ∧ p then t.setStatus status else t).case = s.case ↔ ¬ p ∨ active = false := by
  split_ifs with hp
  · simp [setStatus_case h, hp.1, hp.2]
  · rw [not_and_or, or_comm, Bool.not_eq_true] at hp
    exact iff_of_true h hp

theorem case_of_ends (h : WorkerEnds w a i phase s) (ha : a.worker = some i) : s.case = w.store.case ↔
    a.movesFrom w.store.case.status = false ∨ a.asksActive = true ∧ w.store.countsActive phase = false := by
  cases h with
  | succeeded ha =>
    subst ha
    refine (case_of_ite rfl).trans ?_
    simp [SessionAct.movesFrom, SessionAct.asksActive, CaseStore.countsActive]
  | failed ha =>
    subst ha
    refine (case_of_ite rfl).trans ?_
    simp [SessionAct.movesFrom, SessionAct.asksActive, CaseStore.countsActive]
  | retried ha' =>
    subst ha'
    cases ha
  | @support d r outcome ha =>
    subst ha
    cases outcome with
    | succeeded =>
      refine (case_of_ite rfl).trans ?_
      simp [SessionAct.movesFrom, SessionAct.asksActive, CaseStore.countsActive]
    | failed =>
      refine iff_of_false (setStatus_case rfl) ?_
      simp [SessionAct.movesFrom, SessionAct.asksActive]
    | marked =>
      refine (case_of_ite rfl).trans ?_
      simp [SessionAct.movesFrom, SessionAct.asksActive, CaseStore.countsActive]

theorem asksActive_of_movesFrom {status : CaseStatus} (h : a.movesFrom status = false) : a.asksActive = true := by
  cases a with
  | endSupport i r outcome =>
    cases outcome with
    | failed => cases h
    | _ => rfl
  | _ => rfl

theorem countsActive_of_superseded {d : CaseDocument} (hd : d ∈ s.processedBy phase)
    (hsuper : s.hasSuccessor d.id = true) : s.countsActive phase = phase.readActive := by
  cases phase with
  | supporting d' =>
    obtain ⟨-, hid⟩ := List.mem_filter.1 hd
    have hid : d.id = d'.id := of_decide_eq_true hid
    rw [hid] at hsuper
    cases hrole : d'.role with
    | _ => simp [CaseStore.countsActive, CaseStore.isActive, CaseSession.readActive, hrole, hsuper]
  | _ => rfl

theorem outcome_iff (h : WorkerEnds w a i phase s) (ha : a.worker = some i) (hi : w.sessions i = some phase) :
    (∀ d ∈ w.processed a, w.store.hasSuccessor d.id = true → s.case = w.store.case) ↔ w.Notices a := by
  have hphase : a.worker.bind w.sessions = some phase := by rw [ha]; exact hi
  have hprocessed : w.processed a = w.store.processedBy phase := by
    unfold SessionWorld.processed
    rw [hphase]
    rfl
  unfold SessionWorld.Notices
  rw [hprocessed, hphase]
  refine forall₂_congr fun d hd => forall_congr' fun hsuper => ?_
  rw [case_of_ends h ha, countsActive_of_superseded hd hsuper]
  simp only [Option.mem_def, Option.some.injEq, forall_eq']
  constructor
  · rintro (hmoves | ⟨hasks, hread⟩)
    · exact ⟨asksActive_of_movesFrom hmoves, fun _ => hmoves⟩
    · exact ⟨hasks, fun hread' => absurd hread' (by simp [hread])⟩
  · rintro ⟨hasks, hmoves⟩
    cases hread : phase.readActive with
    | false => exact .inr ⟨hasks, rfl⟩
    | true => exact .inl (hmoves hread)

/-- The attachment a worker has seen is one of the case. -/
def CaseStore.Seen (s : CaseStore) (phase : CaseSession) : Prop :=
  phase.readActive = true ∨ (∃ d, phase = .supporting d) → ∃ d, d ∈ s.processedBy phase

theorem AttachInv.kept (h : AttachInv E w) (hstep : SessionMoves E w a w') {d : CaseDocument}
    (hd : d ∈ w.store.documents) :
    ∃ d' ∈ w'.store.documents, d'.id = d.id ∧ d'.role = d.role ∧ d'.documentId = d.documentId := by
  rcases documents_of_moves hstep with hsame | ⟨-, c, -, -, documentId, attachmentId, documents, -, hsupersede, -, heq⟩
  · exact ⟨d, hsame ▸ hd, rfl, rfl, rfl⟩
  · obtain ⟨rfl, -⟩ := h.attached.supersede h.sessions.rows hsupersede
    obtain ⟨hid, hrole, -⟩ := retire_frame c d
    exact ⟨c.retire d, heq ▸ List.mem_append_left _ (List.mem_map_of_mem hd), hid, hrole, (retire_contents c d).1⟩

theorem CaseStore.Seen.step (h : w.store.Seen phase) (hinv : AttachInv E w) (hstep : SessionMoves E w a w') :
    w'.store.Seen phase := by
  intro hread
  obtain ⟨d, hd⟩ := h hread
  cases phase with
  | extracting documentId loaded active =>
    obtain ⟨hmem, hd⟩ := List.mem_filter.1 hd
    obtain ⟨hdocument, hrole⟩ := of_decide_eq_true hd
    obtain ⟨d', hd', -, hrole', hdocument'⟩ := hinv.kept hstep hmem
    exact ⟨d', List.mem_filter.2 ⟨hd', decide_eq_true ⟨hdocument'.trans hdocument, hrole'.trans hrole⟩⟩⟩
  | supporting d₀ =>
    obtain ⟨hmem, hd⟩ := List.mem_filter.1 hd
    obtain ⟨d', hd', hid, -⟩ := hinv.kept hstep hmem
    exact ⟨d', List.mem_filter.2 ⟨hd', decide_eq_true (hid.trans (of_decide_eq_true hd))⟩⟩
  | _ => cases hd

theorem Enters.seen (h : Enters w s i phase) (hok : CaseOk w.store) : w.store.Seen phase := by
  intro hread
  cases h with
  | extracting =>
    rcases hread with hread | ⟨d, heq⟩
    · obtain ⟨d, hd, hactive⟩ := List.any_eq_true.1 hread
      obtain ⟨hdocument, hslot⟩ := of_decide_eq_true hactive
      exact ⟨d, List.mem_filter.2 ⟨hd, decide_eq_true ⟨hdocument, hok.slots d hd _ hslot⟩⟩⟩
    · cases heq
  | @supporting d hd => exact ⟨d, List.mem_filter.2 ⟨hd, decide_eq_true rfl⟩⟩
  | _ =>
    rcases hread with hread | ⟨d, heq⟩
    · cases hread
    · cases heq

/-- What every run keeps: the attachments are well formed, and every worker has seen one of the case. -/
structure OutcomeInv (E : CaseEnv) (w : SessionWorld) : Prop where
  attached : AttachInv E w
  seen : ∀ i phase, w.sessions i = some phase → w.store.Seen phase

theorem OutcomeInv.step (h : OutcomeInv E w) (hstep : SessionMoves E w a w') : OutcomeInv E w' := by
  refine ⟨h.attached.step hstep, fun j p hj => ?_⟩
  rcases session_cases hstep hj with hold | henters | hcalls
  · exact (h.seen j p hold).step h.attached hstep
  · exact (henters.seen h.attached.sessions.rows).step h.attached hstep
  · intro hread
    cases hcalls with
    | intro =>
      rcases hread with hread | ⟨d, heq⟩
      · cases hread
      · cases heq

theorem OutcomeInv.processed (h : OutcomeInv E w) (hends : WorkerEnds w a i phase s) (ha : a.worker = some i)
    (hi : w.sessions i = some phase) (hmoved : s.case ≠ w.store.case) : ∃ d, d ∈ w.store.processedBy phase := by
  have hcounts : a.asksActive = true → w.store.countsActive phase = true := by
    intro hasks
    by_contra hcounts
    exact hmoved ((case_of_ends hends ha).2 (.inr ⟨hasks, Bool.eq_false_iff.2 hcounts⟩))
  refine h.seen i phase hi ?_
  cases hends with
  | succeeded ha' => exact .inl (hcounts (by rw [ha']; rfl))
  | failed ha' => exact .inl (hcounts (by rw [ha']; rfl))
  | support => exact .inr ⟨_, rfl⟩
  | retried ha' =>
    subst ha'
    cases ha

end

/-- In every state that commands and workers reach, and for every step that ends a worker: the outcome for an
attachment that has been superseded leaves the case as it is if and only if it is noticed; and then an outcome that
moves the case is about an attachment that has not been superseded. -/
theorem outcome_of_superseded (E : CaseEnv) {acts : List SessionAct} {w w' : SessionWorld} {a : SessionAct} {i : ℕ}
    (h : Steps (SessionWorld.next E) .initial acts w) (hn : w.next E a = some w') (ha : a.worker = some i) :
    ((∀ d ∈ w.processed a, w.store.hasSuccessor d.id = true → w'.store.case = w.store.case) ↔ w.Notices a) ∧
      (w.Notices a → w'.store.case ≠ w.store.case → ∃ d ∈ w.processed a, w.store.hasSuccessor d.id = false) := by
  have hinv : OutcomeInv E w := by
    refine h.invariant (fun s a t hs hn => hs.step (sessionMoves_of_next hn)) ⟨attachInv_of_run .nil, ?_⟩
    intro i phase hphase
    cases hphase
  obtain ⟨phase, s, hi, hends, rfl⟩ := ends_of_next hn ha
  rw [work_store]
  have hiff := outcome_iff hends ha hi
  refine ⟨hiff, fun hnotices hmoved => ?_⟩
  obtain ⟨d, hd⟩ := hinv.processed hends ha hi hmoved
  have hd : d ∈ w.processed a := by
    unfold SessionWorld.processed
    rw [ha, Option.bind_some, hi]
    exact hd
  refine ⟨d, hd, Bool.eq_false_iff.2 fun hsuper => ?_⟩
  exact hmoved (hiff.2 hnotices d hd hsuper)

/-- A purchase order is replaced, and a worker still works on the first one. -/
def lateOrderActs : List SessionAct :=
  (tapAttach .purchaseOrder 100 1 none).alone ++ (tapAttach .purchaseOrder 200 2 (some 100)).alone ++
    [.readSupport 0 (Uuid.ofNat 101)]

def lateRun (status : SupportingExtractionStatus) (output : Option Json) : SupportingRunRow :=
  ⟨Uuid.ofNat 102, Uuid.ofNat 100, .purchaseOrder, "v1", ⟨status, output, none, none, none⟩⟩

/-- It succeeds, and the case stays as it is. -/
theorem outcome_of_superseded_lateOrder : ∃ w w', Steps (SessionWorld.next tapCaseEnv) .initial lateOrderActs w ∧
    w.next tapCaseEnv (.endSupport 0 (lateRun .succeeded (some (.obj []))) .succeeded) = some w' ∧
    w.store.case = ⟨.processing, 3⟩ ∧ w'.store.case = ⟨.processing, 3⟩ := by
  have hexec : (exec (SessionWorld.next tapCaseEnv) .initial lateOrderActs).any (fun w =>
      (w.next tapCaseEnv (.endSupport 0 (lateRun .succeeded (some (.obj []))) .succeeded)).isSome ∧
        w.Notices (.endSupport 0 (lateRun .succeeded (some (.obj []))) .succeeded) ∧ w.store.case = ⟨.processing, 3⟩ ∧
        ∃ d ∈ w.processed (.endSupport 0 (lateRun .succeeded (some (.obj []))) .succeeded),
          w.store.hasSuccessor d.id = true) = true := by
    decide +kernel
  obtain ⟨w, hw, hexec⟩ := (Option.any_eq_true _ _).1 hexec
  obtain ⟨hsome, hnotices, hcase, d, hd, hsuper⟩ := of_decide_eq_true hexec
  obtain ⟨w', hn⟩ := Option.isSome_iff_exists.1 hsome
  have hkept := (outcome_of_superseded tapCaseEnv (.of_exec hw) hn rfl).1.2 hnotices d hd hsuper
  exact ⟨w, w', .of_exec hw, hn, hcase, hkept.trans hcase⟩

/-- It fails, and the case with its new purchase order fails with it. -/
theorem lateOrder_fails_case : ∃ w w', Steps (SessionWorld.next tapCaseEnv) .initial lateOrderActs w ∧
    w.next tapCaseEnv (.endSupport 0 (lateRun .failed none) .failed) = some w' ∧
    (∃ d ∈ w.processed (.endSupport 0 (lateRun .failed none) .failed), w.store.hasSuccessor d.id = true) ∧
    w.store.case = ⟨.processing, 3⟩ ∧ w'.store.case = ⟨.failed, 4⟩ := by
  have hexec : (exec (SessionWorld.next tapCaseEnv) .initial lateOrderActs).any (fun w =>
      (∃ d ∈ w.processed (.endSupport 0 (lateRun .failed none) .failed), w.store.hasSuccessor d.id = true) ∧
        w.store.case = ⟨.processing, 3⟩ ∧
        (w.next tapCaseEnv (.endSupport 0 (lateRun .failed none) .failed)).any (fun w' =>
          w'.store.case = ⟨.failed, 4⟩)) = true := by
    decide +kernel
  obtain ⟨w, hw, hexec⟩ := (Option.any_eq_true _ _).1 hexec
  obtain ⟨hsuper, hcase, hnext⟩ := of_decide_eq_true hexec
  obtain ⟨w', hn, hfailed⟩ := (Option.any_eq_true _ _).1 hnext
  exact ⟨w, w', .of_exec hw, hn, hsuper, hcase, of_decide_eq_true hfailed⟩

end InvoiceOps
