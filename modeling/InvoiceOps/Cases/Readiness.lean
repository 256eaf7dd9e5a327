import InvoiceOps.Cases.Rows

/-! When a case is ready to match. The status is computed from the attachments that ask for a confirmation, and
from nothing else: a receipt that was confirmed for an earlier purchase order still counts as confirmed, and the
invoice is not looked at. -/

namespace InvoiceOps

open StateMachine

/-- No receipt and no extraction is lost, and a receipt stays on its purchase order. -/
structure KeepsRecords (db db' : Tables) : Prop where
  receipts : ∀ r ∈ db.receipts, ∃ r' ∈ db'.receipts, r'.id = r.id ∧ r'.purchaseOrderId = r.purchaseOrderId
  extractions : db.extractions ⊆ db'.extractions

section

variable {E : MatchingEnv} {db db' db'' : Tables} {w w' : MatchWorld}

theorem KeepsRecords.refl (db : Tables) : KeepsRecords db db :=
  ⟨fun r hr => ⟨r, hr, rfl, rfl⟩, List.Subset.refl _⟩

theorem keepsRecords_of_moves {a : MatchAct} (h : MatchMoves E w a w') : KeepsRecords w.db w'.db := by
  have hsnoc : ∀ r : GoodsReceipt, KeepsRecords w.db { w.db with receipts := w.db.receipts ++ [r] } :=
    fun _ => ⟨fun r hr => ⟨r, List.mem_append_left _ hr, rfl, rfl⟩, List.Subset.refl _⟩
  cases h with
  | extraction => exact { KeepsRecords.refl w.db with extractions := List.subset_append_left _ _ }
  | receipt => exact hsnoc _
  | commitReceipt => exact hsnoc _
  | @commitReversal i receiptId purchaseOrderId reversal hi =>
    refine { KeepsRecords.refl w.db with receipts := fun r hr => ⟨_, List.mem_map_of_mem hr, ?_⟩ }
    split_ifs
    · exact ⟨rfl, rfl⟩
    · exact ⟨rfl, rfl⟩
  | _ => exact { KeepsRecords.refl w.db with }

theorem keepsRecords_of_service {a : ServiceAct} (h : w.nextService E a = some w') : KeepsRecords w.db w'.db := by
  cases a with
  | act a => exact keepsRecords_of_moves (matchMoves_of_next h)
  | call d p mode fresh =>
    cases hcall : E.callMatch w.db fresh d p mode with
    | error e =>
      simp only [MatchWorld.nextService, hcall] at h
      split_ifs at h
      rw [← Option.some.inj h]
      exact .refl _
    | ok r =>
      rw [db_of_call hcall h]
      obtain ⟨po, x, -, -, hcalled⟩ := called_of_callMatch hcall
      cases hcalled with
      | found _ hreplay =>
        have hsame := SameForCalls.of_replay hreplay
        refine ⟨fun r' hr' => ⟨r', hsame.receipts ▸ hr', rfl, rfl⟩, ?_⟩
        rw [hsame.extractions]
        exact List.Subset.refl _
      | created => exact { KeepsRecords.refl w.db with }

theorem mem_receipts_of_confirm {r : GoodsReceipt} (h : w.nextService E (.act (.confirmReceipt r)) = some w') :
    r ∈ w'.db.receipts := by
  simp only [MatchWorld.nextService, MatchWorld.next] at h
  split_ifs at h
  rw [← Option.some.inj h]
  exact List.mem_append_right _ (List.mem_singleton_self r)

end

/-- The receipt of the confirmation `c` is on the purchase order of the confirmation `p`. -/
def Belongs (db : Tables) (p c : CaseConfirmation) : Prop :=
  ∃ r ∈ db.receipts, r.id = c.canonicalRecordId ∧ r.purchaseOrderId = p.canonicalRecordId

/-- The confirmation is one of the active purchase-order attachment. -/
def CaseStore.ActiveOrder (s : CaseStore) (p : CaseConfirmation) : Prop :=
  ∃ d ∈ s.documents, d.activeSlot = some .purchaseOrder ∧ d.id = p.caseDocumentId

/-- There is a purchase order, and nothing is left to confirm. -/
structure CaseStore.Ready (s : CaseStore) : Prop where
  order : ∃ d ∈ s.documents, d.activeSlot = some .purchaseOrder
  confirmed : ∀ d ∈ s.documents, s.activeSupport d = true → d.id ∈ s.confirmedIds

structure ReadinessInv (w : CaseWorld) : Prop where
  rows : CaseOk w.store
  /-- Receipts that are confirmed after the active purchase order are on it. -/
  ordered : w.store.confirmations.Pairwise fun p c => w.store.ActiveOrder p →
    c.canonicalRecordType = .goodsReceipt → Belongs w.world.db p c
  ready : w.store.case.status = .readyToMatch → w.store.Ready

section

variable {E : CaseEnv} {w w' : CaseWorld} {a : CaseAct} {s s' : CaseStore} {db db' : Tables} {p c : CaseConfirmation}

theorem Belongs.mono (h : Belongs db p c) (hk : KeepsRecords db db') : Belongs db' p c := by
  obtain ⟨r, hr, hid, horder⟩ := h
  obtain ⟨r', hr', hid', horder'⟩ := hk.receipts r hr
  exact ⟨r', hr', hid'.trans hid, horder'.trans horder⟩

theorem statusAfterConfirmation_ready {id : Uuid} (h : s.statusAfterConfirmation id = .readyToMatch) :
    (∃ d ∈ s.documents, d.activeSlot = some .purchaseOrder) ∧
      ∀ d ∈ s.documents, s.activeSupport d = true → d.id ∈ id :: s.confirmedIds := by
  unfold CaseStore.statusAfterConfirmation at h
  split at h
  · cases h
  · next d hd =>
    split_ifs at h with hall
    exact ⟨⟨d, mem_of_active hd⟩, hall⟩

theorem Confirmed.ready (h : Confirmed s c s') (hstatus : s'.case.status = .readyToMatch) : s'.Ready := by
  rw [h.store] at hstatus ⊢
  obtain ⟨horder, hconfirmed⟩ := statusAfterConfirmation_ready hstatus
  refine ⟨horder, fun d hd hsupport => ?_⟩
  have hmem := hconfirmed d hd hsupport
  simp only [CaseStore.confirmedIds, List.map_append, List.map_singleton]
  rcases List.mem_cons.1 hmem with hid | hold
  · exact List.mem_append_right _ (List.mem_singleton.2 hid)
  · exact List.mem_append_left _ hold

theorem CaseStore.Ready.congr (h : s.Ready) (hdocuments : s'.documents = s.documents)
    (hconfirmations : s'.confirmations = s.confirmations) : s'.Ready := by
  obtain ⟨h1, h2⟩ := h
  unfold CaseStore.confirmedIds CaseStore.activeSupport CaseStore.activeReceipt CaseStore.hasSuccessor at h2
  constructor
  all_goals simp only [CaseStore.confirmedIds, CaseStore.activeSupport, CaseStore.activeReceipt,
    CaseStore.hasSuccessor, hdocuments, hconfirmations]
  all_goals assumption

/-- Attaching a document does not make an older confirmation one of the active purchase order. -/
theorem Attached.activeOrder {cmd : AttachCommand} (h : Attached E s cmd s') (hok : CaseOk s)
    (hp : p ∈ s.confirmations) (hactive : s'.ActiveOrder p) : s.ActiveOrder p := by
  obtain ⟨d', hd', hslot, hid⟩ := hactive
  rcases h.mem hok hd' with ⟨d, hd, hk, -⟩ | ⟨hnew, -⟩
  · obtain rfl := hk.frame.2.2 _ hslot
    exact ⟨d', hd, hslot, hid⟩
  · obtain ⟨d, hd, hid', -⟩ := hok.refers p hp
    exact absurd (hid'.trans hid.symm) (hnew d hd)

/-- The confirmation of the active purchase order is the only one. -/
theorem CaseOk.activeOrder_eq (hok : CaseOk s) {po : CaseDocument} (hpo : s.active .purchaseOrder = some po)
    (hp : s.confirmation po.id = some p) (hc : c ∈ s.confirmations) (hactive : s.ActiveOrder c) : c = p := by
  obtain ⟨d, hd, hslot, hid⟩ := hactive
  obtain ⟨hmem, hposlot⟩ := mem_of_active hpo
  obtain rfl := hok.oneActive d hd po hmem _ hslot hposlot
  have hfound := hok.confirmation_eq hc
  rw [← hid, hp] at hfound
  exact (Option.some.inj hfound).symm

theorem ReadinessInv.step (h : ReadinessInv w) (hstep : CaseMoves E w a w') : ReadinessInv w' := by
  have hrows := h.rows.step hstep
  cases hstep with
  | service hworld =>
    refine ⟨hrows, h.ordered.imp fun hold hactive htype => ?_, h.ready⟩
    exact (hold hactive htype).mono (keepsRecords_of_service hworld)
  | rows hdocuments hconfirmations _ hcase =>
    refine ⟨hrows, ?_, fun hready => ?_⟩
    · simp only [CaseStore.ActiveOrder, hdocuments, hconfirmations]
      exact h.ordered
    · rcases hcase with hsame | hother | hother
      · exact (h.ready (hsame ▸ hready)).congr hdocuments hconfirmations
      · rw [hother] at hready
        cases hready
      · rw [hother] at hready
        cases hready
  | attach hattached =>
    refine ⟨hrows, ?_, fun hready => ?_⟩
    · rw [hattached.rest.1]
      refine h.ordered.imp_of_mem fun {p c} hp _ hold hactive htype => ?_
      exact hold (hattached.activeOrder h.rows hp hactive) htype
    · rcases hattached.case.2 with hstatus | hstatus
      · rw [hstatus] at hready
        cases hready
      · rw [hstatus] at hready
        cases hready
  | order _ _ _ htype _ hconfirmed hworld =>
    refine ⟨hrows, ?_, fun hready => hconfirmed.ready hready⟩
    rw [hconfirmed.store]
    refine List.pairwise_append.2 ⟨?_, List.pairwise_singleton _ _, fun p _ c hc _ hc' => ?_⟩
    · exact h.ordered.imp fun hold hactive htype => (hold hactive htype).mono (keepsRecords_of_service hworld)
    · rw [List.mem_singleton.1 hc, htype] at hc'
      cases hc'
  | receipt _ _ _ _ _ hrecord hpo hp horder _ hconfirmed hworld =>
    refine ⟨hrows, ?_, fun hready => hconfirmed.ready hready⟩
    rw [hconfirmed.store]
    refine List.pairwise_append.2 ⟨?_, List.pairwise_singleton _ _, fun q hq c hc hactive _ => ?_⟩
    · exact h.ordered.imp fun hold hactive htype => (hold hactive htype).mono (keepsRecords_of_service hworld)
    · rw [List.mem_singleton.1 hc]
      obtain rfl := h.rows.activeOrder_eq hpo hp hq hactive
      exact ⟨_, mem_receipts_of_confirm hworld, hrecord.symm, horder⟩
  | @matched cmd fresh context r s world _ _ _ hworld hfinish =>
    obtain ⟨-, status, hstatus, rfl⟩ := finishMatch_ok hfinish
    refine ⟨hrows, h.ordered.imp fun hold hactive htype => ?_, fun hready => ?_⟩
    · exact (hold hactive htype).mono (keepsRecords_of_service hworld)
    · simp only [PayableCase.write_self] at hready
      rw [hready] at hstatus
      split_ifs at hstatus

end

theorem readinessInv_initial : ReadinessInv .initial :=
  ⟨caseOk_created, .nil, fun hready => by cases hready⟩

/-- Once this attachment is confirmed, nothing is left to confirm. -/
def CaseStore.LastToConfirm (s : CaseStore) (id : Uuid) : Prop :=
  ∀ d ∈ s.documents, s.activeSupport d = true → d.id ∈ id :: s.confirmedIds

instance (s : CaseStore) (id : Uuid) : Decidable (s.LastToConfirm id) :=
  inferInstanceAs (Decidable (∀ d ∈ s.documents, _ → _))

/-- The attachment a command wants to confirm. -/
def CaseWorld.confirms (w : CaseWorld) : CaseAct → Option CaseDocument
  | .confirmPurchaseOrder _ _ => w.store.active .purchaseOrder
  | .confirmReceipt documentId _ _ => w.store.receiptAttachment documentId
  | _ => none

/-- An attachment that is the last one to be confirmed satisfies `P`. -/
def CaseWorld.Completes (w : CaseWorld) (a : CaseAct) (P : CaseDocument → Prop) : Prop :=
  ∀ d ∈ w.confirms a, d.id ∉ w.store.confirmedIds → w.store.LastToConfirm d.id → P d

instance (w : CaseWorld) (a : CaseAct) (P : CaseDocument → Prop) [DecidablePred P] : Decidable (w.Completes a P) :=
  inferInstanceAs (Decidable (∀ d ∈ w.confirms a, _ → _ → _))

section

variable {E : CaseEnv} {w w' : CaseWorld} {a : CaseAct}

theorem Confirmed.lastToConfirm {s s' : CaseStore} {c : CaseConfirmation} {id : Uuid} (h : Confirmed s c s')
    (hid : c.caseDocumentId = id) (hready : s'.case.status = .readyToMatch) :
    id ∉ s.confirmedIds ∧ s.LastToConfirm id := by
  subst hid
  constructor
  · intro hmem
    obtain ⟨c', hc', heq⟩ := List.mem_map.1 hmem
    exact h.fresh c' hc' heq
  · rw [h.store] at hready
    exact (statusAfterConfirmation_ready hready).2

/-- A case that is ready after a step was so before, or the step was its last confirmation. -/
theorem ready_of_moves (hstep : CaseMoves E w a w') (hready : w'.store.case.status = .readyToMatch) :
    (w.store.case.status = .readyToMatch ∧ w'.store.documents = w.store.documents ∧
      w'.store.confirmations = w.store.confirmations) ∨
    ∃ d c, w.confirms a = some d ∧ c.caseDocumentId = d.id ∧ Confirmed w.store c w'.store ∧
      d.id ∉ w.store.confirmedIds ∧ w.store.LastToConfirm d.id := by
  cases hstep with
  | service => exact .inl ⟨hready, rfl, rfl⟩
  | rows hdocuments hconfirmations _ hcase =>
    rcases hcase with hsame | hother | hother
    · exact .inl ⟨hsame ▸ hready, hdocuments, hconfirmations⟩
    · rw [hother] at hready
      cases hready
    · rw [hother] at hready
      cases hready
  | attach hattached =>
    rcases hattached.case.2 with hstatus | hstatus
    · rw [hstatus] at hready
      cases hready
    · rw [hstatus] at hready
      cases hready
  | @order cmd ids d c po s world ha hd hc _ _ hconfirmed _ =>
    refine .inr ⟨d, c, ?_, hc, hconfirmed, hconfirmed.lastToConfirm hc hready⟩
    rw [ha]
    exact hd
  | @receipt documentId cmd ids d po c p r s world ha hd _ hc _ _ _ _ _ _ hconfirmed _ =>
    refine .inr ⟨d, c, ?_, hc, hconfirmed, hconfirmed.lastToConfirm hc hready⟩
    rw [ha]
    exact hd
  | matched _ _ _ _ hfinish =>
    obtain ⟨-, status, hstatus, rfl⟩ := finishMatch_ok hfinish
    simp only [PayableCase.write_self] at hready
    rw [hready] at hstatus
    split_ifs at hstatus

theorem keepsRecords_of_caseMoves (hstep : CaseMoves E w a w') : KeepsRecords w.world.db w'.world.db := by
  cases hstep with
  | service hworld => exact keepsRecords_of_service hworld
  | rows => exact .refl _
  | attach => exact .refl _
  | order _ _ _ _ _ _ hworld => exact keepsRecords_of_service hworld
  | receipt _ _ _ _ _ _ _ _ _ _ _ hworld => exact keepsRecords_of_service hworld
  | matched _ _ _ hworld => exact keepsRecords_of_service hworld

end

/-- With `id` confirmed too, every active receipt has been confirmed after the active purchase order. -/
def CaseStore.AfterOrder (s : CaseStore) (id : Uuid) : Prop :=
  ∀ po ∈ s.active .purchaseOrder, ∀ d ∈ s.documents, s.activeReceipt d = true →
    d.id ∈ (s.confirmedIds ++ [id]).dropWhile (· ≠ po.id)

instance (s : CaseStore) (id : Uuid) : Decidable (s.AfterOrder id) :=
  inferInstanceAs (Decidable (∀ po ∈ s.active .purchaseOrder, ∀ d ∈ s.documents, _ → _))

def CaseWorld.InOrder (w : CaseWorld) (a : CaseAct) : Prop := w.Completes a fun d => w.store.AfterOrder d.id

instance (w : CaseWorld) (a : CaseAct) : Decidable (w.InOrder a) :=
  inferInstanceAs (Decidable (w.Completes a fun d => w.store.AfterOrder d.id))

/-- The receipts of the case are on its purchase order, and nothing is left to confirm. -/
structure CaseWorld.Consistent (E : CaseEnv) (w : CaseWorld) : Prop where
  receipts : ∀ po p, w.store.active .purchaseOrder = some po → w.store.confirmation po.id = some p →
    ∀ d ∈ w.store.documents, w.store.activeReceipt d = true → ∀ c, w.store.confirmation d.id = some c →
      Belongs w.world.db p c
  context : ∀ context, w.store.currentContext E w.world.db = .ok context →
    ∀ id ∈ context.receiptIds, ∃ r ∈ w.world.db.receipts, r.id = id ∧ r.purchaseOrderId = context.purchaseOrderId
  support : ∀ d ∈ w.store.documents, w.store.activeSupport d = true → (w.store.confirmation d.id).isSome

/-- The receipts of the active attachments are on the active purchase order. -/
def CaseWorld.OneOrder (w : CaseWorld) : Prop :=
  ∀ p ∈ w.store.confirmations, w.store.ActiveOrder p → ∀ d ∈ w.store.documents, w.store.activeReceipt d = true →
    ∀ c ∈ w.store.confirmations, c.caseDocumentId = d.id → Belongs w.world.db p c

section

variable {E : CaseEnv} {w w' : CaseWorld} {a : CaseAct}

theorem activeReceipt_congr {s s' : CaseStore} (h : s'.documents = s.documents) (d : CaseDocument) :
    s'.activeReceipt d = s.activeReceipt d := by
  rw [CaseStore.activeReceipt, CaseStore.hasSuccessor, h]
  rfl

theorem oneOrder_step (hinv : ReadinessInv w') (hC : w.InOrder a) (hstep : CaseMoves E w a w')
    (hready : w'.store.case.status = .readyToMatch) (hold : w.store.case.status = .readyToMatch → w.OneOrder) :
    w'.OneOrder := by
  rcases ready_of_moves hstep hready with ⟨hwas, hdocuments, hconfirmations⟩ |
    ⟨d, c, hconfirms, hc, hconfirmed, hfresh, hlast⟩
  · intro p hp hactive r hr hreceipt c hc hcr
    rw [hconfirmations] at hp hc
    rw [CaseStore.ActiveOrder, hdocuments] at hactive
    rw [hdocuments] at hr
    rw [activeReceipt_congr hdocuments] at hreceipt
    exact (hold hwas p hp hactive r hr hreceipt c hc hcr).mono (keepsRecords_of_caseMoves hstep)
  · intro p hp hactive r hr hreceipt c' hc' hcr
    have hdocuments : w'.store.documents = w.store.documents := by rw [hconfirmed.store]
    have hids : w'.store.confirmedIds = w.store.confirmedIds ++ [d.id] := by
      rw [hconfirmed.store, CaseStore.confirmedIds, List.map_append, List.map_singleton, hc]
      rfl
    obtain ⟨po, hpo, hslot, hid⟩ := hactive
    have hposome : w.store.active .purchaseOrder = some po := by
      have hsome := hinv.rows.active_eq hpo hslot
      rw [CaseStore.active, hdocuments] at hsome
      exact hsome
    have hafter := hC d hconfirms hfresh hlast po hposome r (hdocuments ▸ hr) (activeReceipt_congr hdocuments r ▸ hreceipt)
    rw [← hids, ← hcr, hid] at hafter
    obtain ⟨d', hd', hid', htype⟩ := hinv.rows.refers c' hc'
    obtain rfl : d' = r := List.inj_on_of_nodup_map hinv.rows.documentIds hd' hr (hid'.trans hcr)
    have hrole : d'.role.isReceipt = true := (Bool.and_eq_true_iff.1 hreceipt).1
    have hne : c'.caseDocumentId ≠ p.caseDocumentId := by
      intro heq
      obtain rfl : d' = po := List.inj_on_of_nodup_map hinv.rows.documentIds hd' hpo (hid'.trans (heq.trans hid.symm))
      rw [hinv.rows.slots d' hd' _ hslot] at hrole
      cases hrole
    have hnodup : (w'.store.confirmations.map fun c => c.caseDocumentId).Nodup := hinv.rows.confirmedOnce
    exact Lists.rel_of_mem_dropWhile hinv.ordered hnodup hp hc' hne hafter ⟨po, hpo, hslot, hid⟩ (htype.2 hrole)

theorem mem_receiptConfirmations {s : CaseStore} {c : CaseConfirmation} : c ∈ s.receiptConfirmations ↔
    c ∈ s.confirmations ∧ c.canonicalRecordType = .goodsReceipt ∧
      ∃ d ∈ s.documents, d.id = c.caseDocumentId ∧ s.activeReceipt d = true := by
  simp [CaseStore.receiptConfirmations, List.mem_insertionSort]

theorem currentContext_ok {s : CaseStore} {db : Tables} {context : CaseContext}
    (h : s.currentContext E db = .ok context) :
    ∃ invoice po x p, s.active .invoice = some invoice ∧ s.active .purchaseOrder = some po ∧
      db.currentExtraction invoice.documentId = some x ∧ s.confirmation po.id = some p ∧
      context = s.contextWith E invoice po x p := by
  unfold CaseStore.currentContext at h
  split at h
  · cases h
  · next invoice hinvoice =>
    split at h
    · cases h
    · next po hpo =>
      split at h
      · cases h
      · next x hx =>
        split at h
        · cases h
        · next p hp =>
          exact ⟨invoice, po, x, p, activeAttachment_ok hinvoice, activeAttachment_ok hpo, hx, hp,
            (Except.ok.inj h).symm⟩

theorem CaseWorld.OneOrder.consistent (h : w.OneOrder) (hready : w.store.Ready) : w.Consistent E := by
  have hactive : ∀ po p, w.store.active .purchaseOrder = some po → w.store.confirmation po.id = some p →
      p ∈ w.store.confirmations ∧ w.store.ActiveOrder p := by
    intro po p hpo hp
    obtain ⟨hmem, hslot⟩ := mem_of_active hpo
    obtain ⟨hpmem, hid⟩ := mem_of_confirmation hp
    exact ⟨hpmem, po, hmem, hslot, hid.symm⟩
  refine ⟨fun po p hpo hp d hd hreceipt c hc => ?_, fun context hcontext id hid => ?_, fun d hd hsupport => ?_⟩
  · obtain ⟨hpmem, horder⟩ := hactive po p hpo hp
    obtain ⟨hcmem, hcid⟩ := mem_of_confirmation hc
    exact h p hpmem horder d hd hreceipt c hcmem hcid
  · obtain ⟨invoice, po, x, p, -, hpo, -, hp, rfl⟩ := currentContext_ok hcontext
    obtain ⟨hpmem, horder⟩ := hactive po p hpo hp
    obtain ⟨c, hc, rfl⟩ := List.mem_map.1 hid
    obtain ⟨hcmem, -, d, hd, hcid, hreceipt⟩ := mem_receiptConfirmations.1 hc
    exact h p hpmem horder d hd hreceipt c hcmem hcid.symm
  · exact confirmation_isSome.2 (hready.confirmed d hd hsupport)

end

/-- As long as no confirmation completes a case with a receipt that was confirmed before the active purchase
order, a case that is ready to match has the receipts of its attachments on the purchase order of its active
attachment, and every supporting attachment confirmed. -/
theorem ready_consistent (E : CaseEnv) {acts : List CaseAct} {w : CaseWorld}
    (h : Steps (restrict CaseWorld.InOrder (CaseWorld.next E)) .initial acts w)
    (hready : w.store.case.status = .readyToMatch) : w.Consistent E := by
  have hinv : ReadinessInv w ∧ (w.store.case.status = .readyToMatch → w.OneOrder) := by
    refine h.invariant (I := fun w => ReadinessInv w ∧ (w.store.case.status = .readyToMatch → w.OneOrder)) ?_
      ⟨readinessInv_initial, fun hready => by cases hready⟩
    intro s a t hs hn
    obtain ⟨hC, hn⟩ := restrict_eq_some.1 hn
    have hmoves := caseMoves_of_next hn
    have hinv := hs.1.step hmoves
    exact ⟨hinv, fun hready => oneOrder_step hinv hC hmoves hready hs.2⟩
  exact (hinv.2 hready).consistent (hinv.1.ready hready)

def tapCaseEnv : CaseEnv := ⟨tapEnv, fun _ _ => [], fun _ _ => []⟩

/-- The document `n` is uploaded and attached. -/
def tapAttach (role : DocumentRole) (n version : ℕ) (supersedes : Option ℕ) : CaseAct :=
  .attach ⟨role, "attach " ++ toString n, version, toString n, supersedes.map fun m => Uuid.ofNat (m + 1)⟩ (Uuid.ofNat n)
    (Uuid.ofNat (n + 1))

/-- Its supporting extraction succeeds. -/
def tapExtracted (role : DocumentRole) (n : ℕ) : CaseAct :=
  .supportSucceeded (Uuid.ofNat (n + 1))
    ⟨Uuid.ofNat (n + 2), Uuid.ofNat n, role, "v1", ⟨.succeeded, some (.obj []), none, none, none⟩⟩

def tapCommand {V : Type} (n version : ℕ) (confirmed : V) : ConfirmCommand V :=
  ⟨version, Uuid.ofNat (n + 2), "v1", confirmed, .obj [], none, "confirm " ++ toString n⟩

def tapIds (n : ℕ) : ConfirmIds := ⟨Uuid.ofNat (n + 3), Uuid.ofNat (n + 4), fun k => Uuid.ofNat (n + 5 + k), n, .first⟩

/-- A purchase order for one tap is attached, extracted and confirmed. -/
def orderActs (n version : ℕ) (supersedes : Option ℕ) : List CaseAct :=
  [tapAttach .purchaseOrder n version supersedes, tapExtracted .purchaseOrder n,
    .confirmPurchaseOrder (tapCommand n (version + 2)
      ⟨"PO-1", some "Acme", "EUR", [⟨"1", "Tap", ⟨false, 1, 0⟩, ⟨false, 10, 0⟩, none⟩]⟩) (tapIds n)]

theorem one_positive : 0 < (⟨false, 1, 0⟩ : Decimal).toRat := by
  norm_num [Decimal.toRat, Decimal.int]

/-- A receipt of one tap is attached, extracted and confirmed. -/
def receiptActs (n version : ℕ) (supersedes : Option ℕ) : List CaseAct :=
  [tapAttach .goodsReceipt n version supersedes, tapExtracted .goodsReceipt n,
    .confirmReceipt (Uuid.ofNat n) (tapCommand n (version + 2)
      ⟨"GR " ++ toString n, "PO-1", .first, [⟨"1", ⟨false, 1, 0⟩, one_positive⟩]⟩) (tapIds n)]

/-- The purchase order is confirmed, and then its receipt. -/
def deliveryActs : List CaseAct := orderActs 100 1 none ++ receiptActs 200 4 none

theorem ready_consistent_delivery : ∃ w,
    Steps (restrict CaseWorld.InOrder (CaseWorld.next tapCaseEnv)) .initial deliveryActs w ∧
    w.store.case.status = .readyToMatch ∧ w.store.receiptConfirmations.length = 1 ∧ w.Consistent tapCaseEnv := by
  have hexec : (exec (restrict CaseWorld.InOrder (CaseWorld.next tapCaseEnv)) .initial deliveryActs).any
      (fun w => w.store.case.status = .readyToMatch ∧ w.store.receiptConfirmations.length = 1) = true := by
    decide +kernel
  obtain ⟨w, hw, hexec⟩ := (Option.any_eq_true _ _).1 hexec
  obtain ⟨hready, hlength⟩ := of_decide_eq_true hexec
  exact ⟨w, .of_exec hw, hready, hlength, ready_consistent tapCaseEnv (.of_exec hw) hready⟩

/-- The purchase order is replaced after its receipt has been confirmed. -/
def replacedActs : List CaseAct := deliveryActs ++ orderActs 300 7 (some 100)

theorem replaced_inconsistent : ∃ w, Steps (CaseWorld.next tapCaseEnv) .initial replacedActs w ∧
    w.store.case.status = .readyToMatch ∧ ¬ w.Consistent tapCaseEnv := by
  have hexec : (exec (CaseWorld.next tapCaseEnv) .initial replacedActs).any
      (fun w => w.store.case.status = .readyToMatch ∧
        (w.store.active .purchaseOrder).any fun po => (w.store.confirmation po.id).any fun p =>
          w.store.documents.any fun d => w.store.activeReceipt d && (w.store.confirmation d.id).any fun c =>
            w.world.db.receipts.all fun r => r.id ≠ c.canonicalRecordId ∨ r.purchaseOrderId ≠ p.canonicalRecordId) =
        true := by
    decide +kernel
  obtain ⟨w, hw, hexec⟩ := (Option.any_eq_true _ _).1 hexec
  obtain ⟨hready, hexec⟩ := of_decide_eq_true hexec
  obtain ⟨po, hpo, hexec⟩ := (Option.any_eq_true _ _).1 hexec
  obtain ⟨p, hp, hexec⟩ := (Option.any_eq_true _ _).1 hexec
  obtain ⟨d, hd, hexec⟩ := List.any_eq_true.1 hexec
  obtain ⟨hreceipt, hexec⟩ := Bool.and_eq_true_iff.1 hexec
  obtain ⟨c, hc, hexec⟩ := (Option.any_eq_true _ _).1 hexec
  refine ⟨w, .of_exec hw, hready, fun hconsistent => ?_⟩
  obtain ⟨r, hr, hid, horder⟩ := hconsistent.receipts po p hpo hp d hd hreceipt c hc
  rcases of_decide_eq_true (List.all_eq_true.1 hexec r hr) with hne | hne
  · exact hne hid
  · exact hne horder

/-- The active invoice has been extracted. -/
def CaseWorld.invoiceExtracted (w : CaseWorld) : Bool :=
  (w.store.active .invoice).any fun d => (w.world.db.currentExtraction d.documentId).isSome

def CaseWorld.Billed (w : CaseWorld) (a : CaseAct) : Prop := w.Completes a fun _ => w.invoiceExtracted = true

instance (w : CaseWorld) (a : CaseAct) : Decidable (w.Billed a) :=
  inferInstanceAs (Decidable (w.Completes a fun _ => w.invoiceExtracted = true))

/-- `match` does not raise `CaseNotReadyError` on a current version with a new key: it finds what it needs. -/
structure CaseWorld.Matchable (E : CaseEnv) (w : CaseWorld) : Prop where
  invoice : ∃ d x, w.store.active .invoice = some d ∧ w.world.db.currentExtraction d.documentId = some x
  order : ∃ d p, w.store.active .purchaseOrder = some d ∧ w.store.confirmation d.id = some p
  accepts : ∀ c fresh, c.expectedCaseVersion = w.store.case.version →
    (∀ x ∈ w.store.contexts, x.idempotencyKey ≠ c.idempotencyKey) →
    ∀ message, w.matchCase E c fresh ≠ .error (.caseNotReady message)

section

variable {E : CaseEnv} {w w' : CaseWorld} {a : CaseAct} {db db' : Tables}

theorem currentExtraction_isSome {documentId : Uuid} :
    (db.currentExtraction documentId).isSome ↔ ∃ x ∈ db.extractions, x.documentId = documentId := by
  have hperm := List.perm_insertionSort (fun x y : ExtractionRun => x.strategy ≤ y.strategy)
    (db.extractions.filter (·.documentId = documentId))
  rw [Tables.currentExtraction, List.isSome_head?, ne_eq, ← List.length_eq_zero_iff, hperm.length_eq,
    List.length_eq_zero_iff, List.filter_eq_nil_iff]
  simp

theorem invoiceExtracted_mono (hdocuments : w'.store.documents = w.store.documents)
    (hk : KeepsRecords w.world.db w'.world.db) (h : w.invoiceExtracted = true) : w'.invoiceExtracted = true := by
  obtain ⟨d, hd, hx⟩ := (Option.any_eq_true _ _).1 h
  obtain ⟨x, hmem, hid⟩ := currentExtraction_isSome.1 hx
  have hd' : w'.store.active .invoice = some d := by
    rw [CaseStore.active, hdocuments]
    exact hd
  rw [CaseWorld.invoiceExtracted, hd', Option.any_some]
  exact currentExtraction_isSome.2 ⟨x, hk.extractions hmem, hid⟩

theorem invoiceExtracted_step (hC : w.Billed a) (hstep : CaseMoves E w a w')
    (hready : w'.store.case.status = .readyToMatch)
    (hold : w.store.case.status = .readyToMatch → w.invoiceExtracted = true) : w'.invoiceExtracted = true := by
  have hk := keepsRecords_of_caseMoves hstep
  rcases ready_of_moves hstep hready with ⟨hwas, hdocuments, -⟩ | ⟨d, c, hconfirms, -, hconfirmed, hfresh, hlast⟩
  · exact invoiceExtracted_mono hdocuments hk (hold hwas)
  · have hdocuments : w'.store.documents = w.store.documents := by rw [hconfirmed.store]
    exact invoiceExtracted_mono hdocuments hk (hC d hconfirms hfresh hlast)

/-- With a new key and the current version, `match` goes on to the context it finds. -/
theorem planMatch_cases {s : CaseStore} {context : CaseContext} {c : CaseMatchCommand}
    (hcontext : s.currentContext E db = .ok context) (hversion : c.expectedCaseVersion = s.case.version)
    (hkey : ∀ x ∈ s.contexts, x.idempotencyKey ≠ c.idempotencyKey) :
    (∃ x, s.contexts.find? (·.requestFingerprint = E.fingerprint context.json) = some x ∧
      s.planMatch E db c = (db.storedRun x).map .replay) ∨
    s.contexts.find? (·.requestFingerprint = E.fingerprint context.json) = none ∧
      s.planMatch E db c = .ok (.call context) := by
  have hnone : s.contexts.find? (·.idempotencyKey = c.idempotencyKey) = none := by
    refine List.find?_eq_none.2 fun x hx hxkey => hkey x hx ?_
    exact of_decide_eq_true hxkey
  simp only [CaseStore.planMatch, hnone, hversion, hcontext, ne_eq, not_true_eq_false, if_false]
  cases s.contexts.find? (·.requestFingerprint = E.fingerprint context.json) with
  | some x => exact .inl ⟨x, rfl, rfl⟩
  | none => exact .inr ⟨rfl, rfl⟩

theorem storedRun_cases (db : Tables) (x : CaseMatchContext) :
    (∃ run, db.storedRun x = .ok run) ∨ db.storedRun x = .error (.corrupt "case match context is corrupt") := by
  unfold Tables.storedRun
  split
  · exact .inl ⟨_, rfl⟩
  · exact .inr rfl

theorem storedRun_ok {db : Tables} {x : CaseMatchContext} {run : MatchRun} (h : db.storedRun x = .ok run) :
    run ∈ db.runs ∧ run.id = x.matchRunId := by
  unfold Tables.storedRun at h
  split at h
  · next found hfound =>
    obtain rfl := Except.ok.inj h
    exact ⟨List.mem_of_find?_eq_some hfound, by simpa using List.find?_some hfound⟩
  · cases h

/-- `match` calls the matching service with the current context, and on the version it expects. -/
theorem plan_call {s : CaseStore} {c : CaseMatchCommand} {context : CaseContext}
    (h : s.planMatch E db c = .ok (.call context)) :
    s.currentContext E db = .ok context ∧ s.case.version = c.expectedCaseVersion := by
  have hmap : ∀ x, (db.storedRun x).map MatchPlan.replay ≠ .ok (.call context) := by
    intro x hx
    rcases storedRun_cases db x with ⟨run, hrun⟩ | hcorrupt
    · rw [hrun] at hx
      cases hx
    · rw [hcorrupt] at hx
      cases hx
  unfold CaseStore.planMatch at h
  split at h
  · exact absurd h (hmap _)
  · split at h
    · cases h
    · next hversion =>
      split at h
      · cases h
      · next context' hcontext =>
        split at h
        · exact absurd h (hmap _)
        · rw [hcontext, MatchPlan.call.inj (Except.ok.inj h)]
          exact ⟨rfl, not_ne_iff.1 hversion⟩

theorem finishMatch_cases {s : CaseStore} (db : Tables) (c : CaseMatchCommand) (loaded : PayableCase)
    (context : CaseContext) (run : MatchRun) :
    (∃ s', s.finishMatch E db c loaded context run = .ok s') ∨
      s.finishMatch E db c loaded context run = .error .integrity := by
  unfold CaseStore.finishMatch
  split
  · exact .inr rfl
  · exact .inl ⟨_, rfl⟩

theorem matchCase_ready {context : CaseContext} {c : CaseMatchCommand} {fresh : FreshIds}
    (hcontext : w.store.currentContext E w.world.db = .ok context)
    (hversion : c.expectedCaseVersion = w.store.case.version)
    (hkey : ∀ x ∈ w.store.contexts, x.idempotencyKey ≠ c.idempotencyKey) (message : String) :
    w.matchCase E c fresh ≠ .error (.caseNotReady message) := by
  intro h
  unfold CaseWorld.matchCase at h
  rcases planMatch_cases hcontext hversion hkey with ⟨x, -, hplan⟩ | ⟨-, hplan⟩
  · rw [hplan] at h
    rcases storedRun_cases w.world.db x with ⟨run, hrun⟩ | hcorrupt
    · simp only [hrun, Except.map] at h
      cases h
    · simp only [hcorrupt, Except.map] at h
      cases h
  · rw [hplan] at h
    cases hcall : E.callMatch w.world.db fresh context with
    | error e =>
      simp only [hcall] at h
      cases h
    | ok r =>
      simp only [hcall] at h
      rcases finishMatch_cases (s := w.store) r.tables c w.store.case context r.run with ⟨s', hs'⟩ | hintegrity
      · rw [hs'] at h
        cases h
      · rw [hintegrity] at h
        cases h

theorem CaseStore.Ready.matchable (hready : w.store.Ready) (hrows : CaseOk w.store)
    (hinvoice : w.invoiceExtracted = true) : w.Matchable E := by
  obtain ⟨invoice, hactive, hx⟩ := (Option.any_eq_true _ _).1 hinvoice
  obtain ⟨x, hx⟩ := Option.isSome_iff_exists.1 hx
  obtain ⟨po, hmem, hslot⟩ := hready.order
  have hpo := hrows.active_eq hmem hslot
  have hconfirmed := hready.confirmed po hmem (by simp [CaseStore.activeSupport, hslot])
  obtain ⟨p, hp⟩ := Option.isSome_iff_exists.1 (confirmation_isSome.2 hconfirmed)
  have hcontext : w.store.currentContext E w.world.db = .ok (w.store.contextWith E invoice po x p) := by
    simp only [CaseStore.currentContext, CaseStore.activeAttachment, hactive, hpo, hx, hp]
  exact ⟨⟨invoice, x, hactive, hx⟩, ⟨po, p, hpo, hp⟩,
    fun c fresh hversion hkey message => matchCase_ready hcontext hversion hkey message⟩

end

/-- As long as no confirmation completes a case whose active invoice has not been extracted, `match` is ready on
a case that is ready to match. -/
theorem ready_matchable (E : CaseEnv) {acts : List CaseAct} {w : CaseWorld}
    (h : Steps (restrict CaseWorld.Billed (CaseWorld.next E)) .initial acts w)
    (hready : w.store.case.status = .readyToMatch) : w.Matchable E := by
  have hinv : ReadinessInv w ∧ (w.store.case.status = .readyToMatch → w.invoiceExtracted = true) := by
    refine h.invariant (I := fun w => ReadinessInv w ∧
      (w.store.case.status = .readyToMatch → w.invoiceExtracted = true)) ?_
      ⟨readinessInv_initial, fun hready => by cases hready⟩
    intro s a t hs hn
    obtain ⟨hC, hn⟩ := restrict_eq_some.1 hn
    have hmoves := caseMoves_of_next hn
    exact ⟨hs.1.step hmoves, fun hready => invoiceExtracted_step hC hmoves hready hs.2⟩
  exact (hinv.1.ready hready).matchable hinv.1.rows (hinv.2 hready)

/-- The invoice for the tap is attached and extracted. -/
def invoiceActs (version : ℕ) : List CaseAct :=
  [tapAttach .invoice 4 version none, .service (.act (.extract (tapExtraction 5 4))), .jobSucceeded (Uuid.ofNat 4)]

/-- The tap is billed, ordered and received. -/
def tapCaseActs : List CaseAct := invoiceActs 1 ++ orderActs 100 3 none ++ receiptActs 200 6 none

theorem ready_matchable_tap : ∃ w,
    Steps (restrict CaseWorld.Billed (CaseWorld.next tapCaseEnv)) .initial tapCaseActs w ∧
    w.store.case.status = .readyToMatch ∧ w.Matchable tapCaseEnv := by
  have hexec : (exec (restrict CaseWorld.Billed (CaseWorld.next tapCaseEnv)) .initial tapCaseActs).any
      (fun w => w.store.case.status = .readyToMatch) = true := by
    decide +kernel
  obtain ⟨w, hw, hexec⟩ := (Option.any_eq_true _ _).1 hexec
  have hready := of_decide_eq_true hexec
  exact ⟨w, .of_exec hw, hready, ready_matchable tapCaseEnv (.of_exec hw) hready⟩

/-- Without an invoice the case is ready all the same. -/
theorem order_alone_not_ready : ∃ w, Steps (CaseWorld.next tapCaseEnv) .initial (orderActs 100 1 none) w ∧
    w.store.case.status = .readyToMatch ∧ w.store.contexts = [] ∧
    w.matchCase tapCaseEnv ⟨w.store.case.version, "match"⟩ (tapFresh 20) =
      .error (.caseNotReady "Active INVOICE document is required") ∧ ¬ w.Matchable tapCaseEnv := by
  have hexec : (exec (CaseWorld.next tapCaseEnv) .initial (orderActs 100 1 none)).any
      (fun w => w.store.case.status = .readyToMatch ∧ w.store.contexts.length = 0 ∧
        (w.store.active .invoice).isNone) = true := by
    decide +kernel
  obtain ⟨w, hw, hexec⟩ := (Option.any_eq_true _ _).1 hexec
  obtain ⟨hready, hcontexts, hnone⟩ := of_decide_eq_true hexec
  have hcontexts := List.length_eq_zero_iff.1 hcontexts
  have hmatch : w.matchCase tapCaseEnv ⟨w.store.case.version, "match"⟩ (tapFresh 20) =
      .error (.caseNotReady "Active INVOICE document is required") := by
    simp only [CaseWorld.matchCase, CaseStore.planMatch, hcontexts, List.find?_nil, ne_eq, not_true_eq_false, if_false,
      CaseStore.currentContext, CaseStore.activeAttachment, Option.isNone_iff_eq_none.1 hnone]
    rfl
  refine ⟨w, .of_exec hw, hready, hcontexts, hmatch, fun hmatchable => ?_⟩
  refine hmatchable.accepts ⟨w.store.case.version, "match"⟩ (tapFresh 20) rfl ?_ _ hmatch
  rw [hcontexts]
  simp

end InvoiceOps
