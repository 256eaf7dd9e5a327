import InvoiceOps.Cases.Matched
import InvoiceOps.Cases.Replay

/-! The rows of a payable case under idempotency keys: what a command leaves under its key, and what of it stays. -/

namespace InvoiceOps

open StateMachine

/-- The key a command comes with. -/
def CaseAct.idempotencyKey : CaseAct → Option String
  | .attach c _ _ => some c.idempotencyKey
  | .confirmPurchaseOrder c _ => some c.idempotencyKey
  | .confirmReceipt _ c _ => some c.idempotencyKey
  | .matchCase c _ => some c.idempotencyKey
  | _ => none

inductive CaseTable
  | attachments
  | confirmations
  | contexts
deriving DecidableEq

inductive CaseRecord
  | attachment (d : CaseDocument)
  | confirmation (c : CaseConfirmation)
  | context (x : CaseMatchContext)

def CaseRecord.table : CaseRecord → CaseTable
  | .attachment _ => .attachments
  | .confirmation _ => .confirmations
  | .context _ => .contexts

def CaseRecord.idempotencyKey : CaseRecord → String
  | .attachment d => d.idempotencyKey
  | .confirmation c => c.idempotencyKey
  | .context x => x.idempotencyKey

/-- An attachment without the slot, which another one may take. -/
def CaseDocument.bare (d : CaseDocument) : CaseDocument := { d with activeSlot := none }

/-- The rows of the case under a key. -/
def CaseStore.records (s : CaseStore) (key : String) : List CaseRecord :=
  ((s.documents.map CaseDocument.bare).filter (·.idempotencyKey = key)).map .attachment ++
    ((s.confirmations.filter (·.idempotencyKey = key)).map .confirmation ++
      (s.contexts.filter (·.idempotencyKey = key)).map .context)

/-- The uploads are still there, with their contents. -/
def KeepsUploads (s s' : CaseStore) : Prop := ∀ u ∈ s.uploads, ∃ u' ∈ s'.uploads, u'.id = u.id ∧ u'.sha256 = u.sha256

theorem KeepsUploads.of_subset {s s' : CaseStore} (h : s.uploads ⊆ s'.uploads) : KeepsUploads s s' :=
  fun u hu => ⟨u, h hu, rfl, rfl⟩

/-- A record that is new in its table. -/
structure Entered (s s' : CaseStore) (r : CaseRecord) : Prop where
  uploads : KeepsUploads s s'
  records : ∀ key, ∃ before after, s.records key = before ++ after ∧
    s'.records key = before ++ ((if r.idempotencyKey = key then [r] else []) ++ after)
  fresh : ∀ r' ∈ s.records r.idempotencyKey, r'.table ≠ r.table

section

variable {E : CaseEnv} {s s' : CaseStore} {w w' : CaseWorld} {a : CaseAct} {db : Tables}

theorem records_congr (hdocuments : s'.documents.map CaseDocument.bare = s.documents.map CaseDocument.bare)
    (hconfirmations : s'.confirmations = s.confirmations) (hcontexts : s'.contexts = s.contexts) (key : String) :
    s'.records key = s.records key := by
  simp only [CaseStore.records, hdocuments, hconfirmations, hcontexts]

theorem mem_records {key : String} {r : CaseRecord} : r ∈ s.records key ↔ r.idempotencyKey = key ∧
    match r with
    | .attachment d => d ∈ s.documents.map CaseDocument.bare
    | .confirmation c => c ∈ s.confirmations
    | .context x => x ∈ s.contexts := by
  cases r <;> simp [CaseStore.records, CaseRecord.idempotencyKey, and_comm]

theorem map_filter_snoc {α : Type} (f : α → String) (g : α → CaseRecord) (xs : List α) (x : α) (key : String) :
    ((xs ++ [x]).filter (f · = key)).map g = (xs.filter (f · = key)).map g ++ if f x = key then [g x] else [] := by
  rw [List.filter_append, List.map_append]
  split_ifs with h
  · simp [h]
  · simp [h]

theorem entered_attachment {d : CaseDocument}
    (hdocuments : s'.documents.map CaseDocument.bare = s.documents.map CaseDocument.bare ++ [d])
    (hconfirmations : s'.confirmations = s.confirmations) (hcontexts : s'.contexts = s.contexts)
    (hfresh : ∀ d' ∈ s.documents, d'.idempotencyKey ≠ d.idempotencyKey) (huploads : s.uploads ⊆ s'.uploads) :
    Entered s s' (.attachment d) := by
  refine ⟨.of_subset huploads, fun key => ⟨_, _, rfl, ?_⟩, fun r hr htable => ?_⟩
  · simp only [CaseStore.records, hdocuments, hconfirmations, hcontexts, map_filter_snoc CaseDocument.idempotencyKey,
      List.append_assoc]
    rfl
  · obtain ⟨hkey, hmem⟩ := mem_records.1 hr
    cases r with
    | attachment d' =>
      obtain ⟨d₀, hd₀, rfl⟩ := List.mem_map.1 hmem
      exact hfresh d₀ hd₀ hkey
    | confirmation => cases htable
    | context => cases htable

theorem entered_confirmation {c : CaseConfirmation} (h : s.confirm c = .ok s') : Entered s s' (.confirmation c) := by
  unfold CaseStore.confirm at h
  split_ifs at h with hkeys
  obtain rfl := Except.ok.inj h
  refine ⟨.of_subset (List.Subset.refl _), fun key => ⟨((s.documents.map CaseDocument.bare).filter (·.idempotencyKey = key)).map .attachment ++
      (s.confirmations.filter (·.idempotencyKey = key)).map .confirmation, _, (List.append_assoc ..).symm, ?_⟩,
    fun r hr htable => ?_⟩
  · simp only [CaseStore.records, map_filter_snoc CaseConfirmation.idempotencyKey, List.append_assoc]
    rfl
  · obtain ⟨hkey, hmem⟩ := mem_records.1 hr
    cases r with
    | attachment => cases htable
    | confirmation c' => exact hkeys ⟨c', hmem, .inr (.inr hkey)⟩
    | context => cases htable

theorem entered_context {c : CaseMatchCommand} {loaded : PayableCase} {context : CaseContext} {run : MatchRun}
    (h : s.finishMatch E db c loaded context run = .ok s') :
    Entered s s' (.context ⟨run.id, context, c.idempotencyKey, E.fingerprint context.json⟩) := by
  unfold CaseStore.finishMatch at h
  split at h
  · cases h
  · next hkeys =>
    obtain rfl := Except.ok.inj h
    refine ⟨.of_subset (List.Subset.refl _), fun key => ⟨s.records key, [], (List.append_nil _).symm, ?_⟩, fun r hr htable => ?_⟩
    · simp only [CaseStore.records, map_filter_snoc CaseMatchContext.idempotencyKey, List.append_assoc, List.append_nil]
      rfl
    · obtain ⟨hkey, hmem⟩ := mem_records.1 hr
      cases r with
      | attachment => cases htable
      | confirmation => cases htable
      | context x => exact hkeys ⟨x, hmem, .inl hkey⟩

theorem confirmable_run {V : Type} {d : CaseDocument} {c : ConfirmCommand V} {corrected : Json → ConfirmCommand V → List String}
    {run : SupportingRunRow} {names : List String} (h : s.confirmable d c corrected = .ok (run, names)) :
    run.id = c.extractionRunId ∧ run.extractorVersion = c.extractorVersion := by
  unfold CaseStore.confirmable at h
  split_ifs at h
  split at h
  · cases h
  · next r output hrun =>
    dsimp only at h
    split_ifs at h
    obtain ⟨rfl, -⟩ := Prod.mk.inj (Except.ok.inj h)
    unfold CaseStore.supportRun at hrun
    split at hrun
    · cases hrun
    · next r' hr' =>
      split at hrun
      · split_ifs at hrun with hfits
        obtain ⟨rfl, -⟩ := Prod.mk.inj (Except.ok.inj hrun)
        exact ⟨by simpa using List.find?_some hr', hfits.2.2.1⟩
      · cases hrun

theorem except_map_ok {ε α β : Type} {x : Except ε α} {f : α → β} {b : β} (h : x.map f = .ok b) :
    ∃ a, x = .ok a ∧ f a = b := by
  cases x with
  | error e => cases h
  | ok a => exact ⟨a, rfl, Except.ok.inj h⟩

theorem mem_orders_of_create {M : MatchingEnv} {po : PurchaseOrder} {world world' : MatchWorld}
    (h : world.nextService M (.act (.createOrder po)) = some world') : po ∈ world'.db.purchaseOrders := by
  simp only [MatchWorld.nextService, MatchWorld.next] at h
  split_ifs at h
  rw [← Option.some.inj h]
  exact List.mem_append_right _ (List.mem_singleton_self po)

/-- The row of a confirmation says what the command says. -/
structure RecordsConfirmation {V : Type} (E : CaseEnv) (d : CaseDocument) (c : ConfirmCommand V) (type : CanonicalRecordType)
    (row : CaseConfirmation) : Prop where
  attachment : row.caseDocumentId = d.id
  run : row.extractionRunId = c.extractionRunId ∧ row.extractorVersion = c.extractorVersion
  type : row.canonicalRecordType = type
  reason : row.correctionReason = c.correctionReason
  key : row.idempotencyKey = c.idempotencyKey
  fingerprint : row.requestFingerprint = E.fingerprint (confirmationJson d.id c.payload)

/-- What a step adds to the rows under keys. -/
inductive Records (E : CaseEnv) (w : CaseWorld) : CaseAct → CaseWorld → Prop
  | none {a : CaseAct} {w' : CaseWorld} : KeepsUploads w.store w'.store →
      (∀ key, w'.store.records key = w.store.records key) → Records E w a w'
  | attachment {c : AttachCommand} {documentId attachmentId : Uuid} {d : CaseDocument} {w' : CaseWorld} :
      Entered w.store w'.store (.attachment d.bare) → d ∈ w'.store.documents →
      d.role = c.role ∧ d.supersedesId = c.supersedesId ∧ d.idempotencyKey = c.idempotencyKey →
      d.requestFingerprint = E.fingerprint c.json → (∃ u ∈ w'.store.uploads, u.id = d.documentId ∧ u.sha256 = c.sha256) →
      Records E w (.attach c documentId attachmentId) w'
  | order {c : ConfirmCommand PurchaseOrderValues} {ids : ConfirmIds} {d : CaseDocument} {row : CaseConfirmation}
      {po : PurchaseOrder} {w' : CaseWorld} : Entered w.store w'.store (.confirmation row) →
      RecordsConfirmation E d c .purchaseOrder row → w.store.active .purchaseOrder = some d →
      canonicalOrder ids c.confirmed = some po →
      po ∈ w'.world.db.purchaseOrders → po.id = row.canonicalRecordId → Records E w (.confirmPurchaseOrder c ids) w'
  | receipt {documentId : Uuid} {c : ConfirmCommand ReceiptValues} {ids : ConfirmIds} {d : CaseDocument}
      {row : CaseConfirmation} {po : PurchaseOrder} {lines : List GoodsReceiptLine} {t : Calendar.DateTime}
      {r : GoodsReceipt} {w' : CaseWorld} :
      Entered w.store w'.store (.confirmation row) → RecordsConfirmation E d c .goodsReceipt row →
      w.store.receiptAttachment documentId = some d → d ∈ w'.store.documents → po ∈ w.world.db.purchaseOrders →
      c.confirmed.referencedPoNumber = po.externalPoNumber → c.confirmed.lines.mapM (canonicalReceiptLine po) = some lines →
      c.confirmed.receivedAt.toUtc = some t → canonicalReceipt E ids po c.confirmed t lines = some r →
      r ∈ w'.world.db.receipts → r.id = row.canonicalRecordId →
      Records E w (.confirmReceipt documentId c ids) w'
  | context {c : CaseMatchCommand} {fresh : FreshIds} {x : CaseMatchContext} {run : MatchRun} {w' : CaseWorld} :
      Entered w.store w'.store (.context x) → x.idempotencyKey = c.idempotencyKey → run ∈ w'.world.db.runs →
      run.id = x.matchRunId → Records E w (.matchCase c fresh) w'

/-- A supersession changes nothing but slots. -/
theorem bare_supersede (hok : CaseOk s) {c : AttachCommand} {documents : List CaseDocument}
    (h : s.supersede c = .ok documents) : documents.map CaseDocument.bare = s.documents.map CaseDocument.bare := by
  refine Lists.map_eq_map_of_forall₂ ((hok.supersede h).1.flip.imp fun d' d hkept => ?_)
  obtain rfl | rfl := hkept
  · rfl
  · rfl

theorem subset_ingest (s : CaseStore) (sha256 : String) (newId : Uuid) : s.uploads ⊆ (s.ingest sha256 newId).1.uploads := by
  unfold CaseStore.ingest
  split
  · exact List.Subset.refl _
  · exact List.subset_append_left _ _

theorem records_attach (hok : CaseOk w.store) (c : AttachCommand) (documentId attachmentId : Uuid) :
    Records E w (.attach c documentId attachmentId)
      { w with store := (w.store.attach E w.world.db c documentId attachmentId).1 } := by
  obtain ⟨hdocuments, hconfirmations, hcontexts, -⟩ := ingest_rows w.store c.sha256 documentId
  have huploads := subset_ingest w.store c.sha256 documentId
  unfold CaseStore.attach
  dsimp only
  split
  · exact .none (.of_subset (List.Subset.refl _)) fun _ => rfl
  · exact .none (.of_subset (List.Subset.refl _)) fun _ => rfl
  · split_ifs
    · exact .none (.of_subset (List.Subset.refl _)) fun _ => rfl
    · split
      · next s' hlocked =>
        obtain ⟨-, documents, status, hsupersede, -, hids, rfl⟩ := attachLocked_ok hlocked
        rw [supersede_congr hdocuments] at hsupersede
        refine .attachment (d := (w.store.ingest c.sha256 documentId).1.attachment E c
          (w.store.ingest c.sha256 documentId).2 attachmentId) (entered_attachment ?_ hconfirmations hcontexts ?_ huploads)
          (List.mem_append_right _ (List.mem_singleton_self _)) ⟨rfl, rfl, rfl⟩ rfl (mem_ingest _ _ _)
        · rw [List.map_append, bare_supersede hok hsupersede]
          rfl
        · rw [← hdocuments]
          exact fun d' hd' => (hids d' hd').2
      · exact .none (.of_subset huploads) (records_congr (congrArg _ hdocuments) hconfirmations hcontexts)

theorem records_order {c : ConfirmCommand PurchaseOrderValues} {ids : ConfirmIds}
    (h : w.next E (.confirmPurchaseOrder c ids) = some w') : Records E w (.confirmPurchaseOrder c ids) w' := by
  simp only [CaseWorld.next] at h
  split at h
  · next s po hconfirm =>
    obtain ⟨world, hworld, rfl⟩ := Option.map_eq_some_iff.1 h
    unfold CaseStore.confirmPurchaseOrder at hconfirm
    split at hconfirm
    · cases hconfirm
    · next d hd =>
      split at hconfirm
      · cases hconfirm
      · cases hconfirm
      · cases hpo : w.store.confirmPo E d c ids with
        | error e =>
          rw [hpo] at hconfirm
          cases hconfirm
        | ok found =>
          rw [hpo] at hconfirm
          obtain rfl := Option.some.inj (Except.ok.inj hconfirm)
          unfold CaseStore.confirmPo at hpo
          split at hpo
          · cases hpo
          · next run corrected hrun =>
            split at hpo
            · cases hpo
            · next po' hpo' =>
              obtain ⟨s', hs', hfound⟩ := except_map_ok hpo
              obtain ⟨rfl, rfl⟩ := Prod.mk.inj hfound
              exact .order (entered_confirmation hs') ⟨rfl, confirmable_run hrun, rfl, rfl, rfl, rfl⟩ (activeAttachment_ok hd)
                hpo' (mem_orders_of_create hworld) (canonicalOrder_id hpo')
  · exact Option.some.inj h ▸ .none (.of_subset (List.Subset.refl _)) fun _ => rfl

theorem records_receipt {documentId : Uuid} {c : ConfirmCommand ReceiptValues} {ids : ConfirmIds}
    (h : w.next E (.confirmReceipt documentId c ids) = some w') : Records E w (.confirmReceipt documentId c ids) w' := by
  simp only [CaseWorld.next] at h
  split at h
  · next s r hconfirm =>
    obtain ⟨world, hworld, rfl⟩ := Option.map_eq_some_iff.1 h
    unfold CaseStore.confirmGoodsReceipt at hconfirm
    split at hconfirm
    · cases hconfirm
    · next d hd =>
      split_ifs at hconfirm with hsuccessor
      split at hconfirm
      · cases hconfirm
      · cases hconfirm
      · obtain ⟨found, hr, hfound⟩ := except_map_ok hconfirm
        obtain rfl := Option.some.inj hfound
        unfold CaseStore.confirmReceipt at hr
        split at hr
        · cases hr
        · next run corrected hrun =>
          split at hr
          · cases hr
          · split at hr
            · cases hr
            · split at hr
              · cases hr
              · next po hpo =>
                split at hr
                · cases hr
                next hnumber =>
                split at hr
                · cases hr
                next lines hlines =>
                  split at hr
                  swap
                  · cases hr
                  split at hr
                  · cases hr
                  next t ht =>
                  split at hr
                  · cases hr
                  · next r' hr' =>
                    split_ifs at hr
                    obtain ⟨s', hs', hfound⟩ := except_map_ok hr
                    obtain ⟨rfl, rfl⟩ := Prod.mk.inj hfound
                    have hstore : s'.documents = w.store.documents := by
                      rw [(confirm_ok hs').store]
                    exact .receipt (entered_confirmation hs') ⟨rfl, confirmable_run hrun, rfl, rfl, rfl, rfl⟩ hd
                      (hstore ▸ (isReceipt_of_receiptAttachment hd).1) (Tables.mem_purchaseOrders hpo).1
                      (not_ne_iff.1 hnumber) hlines ht hr' (mem_receipts_of_confirm hworld) (canonicalReceipt_id hr').1
  · exact Option.some.inj h ▸ .none (.of_subset (List.Subset.refl _)) fun _ => rfl

theorem records_match {c : CaseMatchCommand} {fresh : FreshIds} (h : w.next E (.matchCase c fresh) = some w') :
    Records E w (.matchCase c fresh) w' := by
  simp only [CaseWorld.next] at h
  split at h
  · next context hplan =>
    obtain ⟨world, hworld, rfl⟩ := Option.map_eq_some_iff.1 h
    unfold CaseStore.afterMatch
    split
    · exact .none (.of_subset (List.Subset.refl _)) fun _ => rfl
    · next r hr =>
      split
      · next s hs =>
        obtain ⟨po, x, -, -, hcalled⟩ := called_of_callMatch hr
        exact .context (entered_context hs) rfl ((db_of_call hr hworld).symm ▸ hcalled.mem) rfl
      · exact .none (.of_subset (List.Subset.refl _)) fun _ => rfl
  · exact Option.some.inj h ▸ .none (.of_subset (List.Subset.refl _)) fun _ => rfl

/-- What a worker leaves as it was. -/
theorem works_support {attachmentId : Uuid} {r : SupportingRunRow} {f : CaseDocument → CaseStore}
    (hf : ∀ d, Works w.store (f d)) (h : w.support attachmentId r f = some w') : Works w.store w'.store := by
  unfold CaseWorld.support at h
  split at h
  · cases h
  · split_ifs at h
    exact Option.some.inj h ▸ hf _

/-- A step without a key leaves the rows under keys as they are. -/
theorem works_of_next (hkey : a.idempotencyKey = none) (h : w.next E a = some w') : Works w.store w'.store := by
  have hsame : Works w.store w.store := ⟨rfl, rfl, rfl, sameUploads _, .inl rfl⟩
  cases a with
  | service b =>
    obtain ⟨world, -, rfl⟩ := Option.map_eq_some_iff.1 h
    exact hsame
  | jobSucceeded documentId =>
    simp only [CaseWorld.next] at h
    split_ifs at h
    exact Option.some.inj h ▸ jobSucceeded_works documentId _
  | jobFailed documentId =>
    simp only [CaseWorld.next] at h
    split_ifs at h
    · exact Option.some.inj h ▸ hsame
    · exact Option.some.inj h ▸ jobFailed_works documentId _ _
  | supportSucceeded attachmentId r => exact works_support (fun d => afterSupport_works d r .succeeded) h
  | supportFailed attachmentId r => exact works_support (fun d => afterSupport_works d r .failed) h
  | supportMarked attachmentId r => exact works_support (fun d => afterSupport_works d r .marked) h
  | _ => cases hkey

theorem records_of_next (hok : CaseOk w.store) (h : w.next E a = some w') : Records E w a w' := by
  cases a with
  | attach c documentId attachmentId =>
    obtain rfl := Option.some.inj h
    exact records_attach hok c documentId attachmentId
  | confirmPurchaseOrder => exact records_order h
  | confirmReceipt => exact records_receipt h
  | matchCase => exact records_match h
  | _ =>
    have hworks := works_of_next rfl h
    refine .none (fun u hu => ?_) (records_congr (congrArg _ hworks.documents) hworks.confirmations hworks.contexts)
    exact Lists.exists_of_forall₂_mem hworks.uploads.flip hu

/-- What is known of a case and of the tables, later. -/
structure KeepsCase (w w' : CaseWorld) : Prop where
  uploads : KeepsUploads w.store w'.store
  documents : w.store.documents.map CaseDocument.bare <+: w'.store.documents.map CaseDocument.bare
  active : ∀ role, (w.store.active role).isSome → (w'.store.active role).isSome
  contexts : w.store.contexts <+: w'.store.contexts
  tables : Grows w.world.db w'.world.db

theorem Records.uploads (h : Records E w a w') : KeepsUploads w.store w'.store := by
  cases h with
  | none huploads => exact huploads
  | attachment hentered => exact hentered.uploads
  | order hentered => exact hentered.uploads
  | receipt hentered => exact hentered.uploads
  | context hentered => exact hentered.uploads

theorem active_isSome {role : DocumentRole} : (s.active role).isSome ↔ ∃ d ∈ s.documents, d.activeSlot = some role := by
  simp [CaseStore.active]

/-- A slot that is taken stays taken: only the new attachment takes it from another one. -/
theorem Attached.active {c : AttachCommand} (h : Attached E s c s') (hok : CaseOk s) {role : DocumentRole}
    (hsome : (s.active role).isSome) : (s'.active role).isSome := by
  obtain ⟨documents, documentId, attachmentId, hsupersede, -, hdocuments⟩ := h.documents
  obtain ⟨d, hd, hslot⟩ := active_isSome.1 hsome
  rw [active_isSome, hdocuments]
  by_cases hnew : c.role.slot = some role
  · exact ⟨_, List.mem_append_right _ (List.mem_singleton_self _), hnew⟩
  · refine ⟨d, List.mem_append_left _ ?_, hslot⟩
    unfold CaseStore.supersede at hsupersede
    split at hsupersede
    · next slot hrole =>
      split at hsupersede
      · next active hactive =>
        split_ifs at hsupersede
        obtain rfl := Except.ok.inj hsupersede
        refine List.mem_map.2 ⟨d, hd, if_neg fun hid => hnew ?_⟩
        obtain ⟨hmem, hactiveSlot⟩ := mem_of_active hactive
        obtain rfl := List.inj_on_of_nodup_map hok.documentIds hd hmem hid
        rw [hrole, ← hactiveSlot, hslot]
      · split_ifs at hsupersede
        exact Except.ok.inj hsupersede ▸ hd
    · split at hsupersede
      · exact Except.ok.inj hsupersede ▸ hd
      · split_ifs at hsupersede
        exact Except.ok.inj hsupersede ▸ hd

theorem caseOk_of_steps {acts : List CaseAct} (h : Steps (CaseWorld.next E) .initial acts w) : CaseOk w.store :=
  h.invariant (I := fun w => CaseOk w.store) (fun _ _ _ hs hn => hs.step (caseMoves_of_next hn)) caseOk_created

theorem keepsCase_of_next {acts : List CaseAct} (hrun : Steps (CaseWorld.next E) .initial acts w)
    (h : w.next E a = some w') : KeepsCase w w' := by
  have hok := caseOk_of_steps hrun
  have hmoves := caseMoves_of_next h
  obtain ⟨acts', hservice⟩ := service_of_steps hrun
  obtain ⟨later, hlater⟩ := service_of_moves hmoves
  have hsame : w'.store.documents = w.store.documents →
      w.store.documents.map CaseDocument.bare <+: w'.store.documents.map CaseDocument.bare ∧
        ∀ role, (w.store.active role).isSome → (w'.store.active role).isSome := by
    intro hdocuments
    refine ⟨hdocuments ▸ List.prefix_refl _, fun role hsome => ?_⟩
    rw [CaseStore.active, hdocuments]
    exact hsome
  have hrows : w.store.documents.map CaseDocument.bare <+: w'.store.documents.map CaseDocument.bare ∧
      ∀ role, (w.store.active role).isSome → (w'.store.active role).isSome := by
    cases hmoves with
    | service => exact hsame rfl
    | rows hdocuments => exact hsame hdocuments
    | attach hattached =>
      obtain ⟨documents, documentId, attachmentId, hsupersede, -, hdocuments⟩ := hattached.documents
      refine ⟨?_, fun role hsome => hattached.active hok hsome⟩
      rw [hdocuments, List.map_append, bare_supersede hok hsupersede]
      exact List.prefix_append _ _
    | order _ _ _ _ _ hconfirmed _ =>
      rw [hconfirmed.store] at hsame ⊢
      exact hsame rfl
    | receipt _ _ _ _ _ _ _ _ _ _ hconfirmed _ =>
      rw [hconfirmed.store] at hsame ⊢
      exact hsame rfl
    | matched _ _ _ _ hfinish =>
      obtain ⟨-, status, -, rfl⟩ := finishMatch_ok hfinish
      exact hsame rfl
  exact ⟨(records_of_next hok h).uploads, hrows.1, hrows.2, contexts_of_steps (.single h), grows_of_service hservice hlater⟩

theorem exists_later {rs rs' : List GoodsReceipt} (h : Grown rs rs') {r : GoodsReceipt} (hr : r ∈ rs) :
    ∃ r' ∈ rs', Later r r' := by
  obtain ⟨old, new, rfl, hlater⟩ := h
  obtain ⟨r', hr', hr'later⟩ := Lists.exists_of_forall₂_mem hlater.flip hr
  exact ⟨r', List.mem_append_left _ hr', hr'later⟩

/-- The attachment a receipt is confirmed for stays the same. -/
theorem KeepsCase.receiptAttachment (h : KeepsCase w w') {documentId id : Uuid}
    (hd : (w.store.receiptAttachment documentId).map (·.id) = some id) :
    (w'.store.receiptAttachment documentId).map (·.id) = some id := by
  have hbare : ∀ s : CaseStore, (s.receiptAttachment documentId).map (·.id) = (((s.documents.map CaseDocument.bare).find?
      fun d => d.documentId = documentId ∧ d.role.isReceipt = true).map (·.id)) := by
    intro s
    rw [List.find?_map, Option.map_map]
    rfl
  obtain ⟨later, hlater⟩ := h.documents
  rw [hbare] at hd ⊢
  rw [← hlater, List.find?_append]
  obtain ⟨d, hfound, rfl⟩ := Option.map_eq_some_iff.1 hd
  rw [hfound]
  rfl

theorem exists_find?_key {α β : Type} {f : α → String} {g : α → β} {xs : List α} {x : α} {key : String} (hx : x ∈ xs)
    (hkey : f x = key) (hone : ∀ y ∈ xs, f y = key → g y = g x) : ∃ y, xs.find? (f · = key) = some y ∧ g y = g x := by
  have hsome : (xs.find? (f · = key)).isSome := List.find?_isSome.2 ⟨x, hx, by simpa using hkey⟩
  obtain ⟨y, hy⟩ := Option.isSome_iff_exists.1 hsome
  exact ⟨y, hy, hone y (List.mem_of_find?_eq_some hy) (by simpa using List.find?_some hy)⟩

theorem find_document {key : String} {d : CaseDocument} (h : s.records key = [.attachment d]) :
    ∃ d', s.documents.find? (·.idempotencyKey = key) = some d' ∧ d'.bare = d := by
  obtain ⟨hkey, hmem⟩ := mem_records.1 (h ▸ List.mem_singleton_self (CaseRecord.attachment d))
  obtain ⟨d₀, hd₀, rfl⟩ := List.mem_map.1 hmem
  refine exists_find?_key hd₀ hkey fun d' hd' hkey' => ?_
  have hmem' : CaseRecord.attachment d'.bare ∈ s.records key := mem_records.2 ⟨hkey', List.mem_map_of_mem hd'⟩
  rw [h] at hmem'
  exact CaseRecord.attachment.inj (List.mem_singleton.1 hmem')

theorem find_confirmation {key : String} {c : CaseConfirmation} (h : s.records key = [.confirmation c]) :
    s.confirmations.find? (·.idempotencyKey = key) = some c := by
  obtain ⟨hkey, hmem⟩ := mem_records.1 (h ▸ List.mem_singleton_self (CaseRecord.confirmation c))
  obtain ⟨c', hc', rfl⟩ := exists_find?_key hmem hkey fun c' hc' hkey' => by
    have hmem' : CaseRecord.confirmation c' ∈ s.records key := mem_records.2 ⟨hkey', hc'⟩
    rw [h] at hmem'
    exact CaseRecord.confirmation.inj (List.mem_singleton.1 hmem')
  exact hc'

theorem find_context {key : String} {x : CaseMatchContext} (h : s.records key = [.context x]) :
    s.contexts.find? (·.idempotencyKey = key) = some x := by
  obtain ⟨hkey, hmem⟩ := mem_records.1 (h ▸ List.mem_singleton_self (CaseRecord.context x))
  obtain ⟨x', hx', rfl⟩ := exists_find?_key hmem hkey fun x' hx' hkey' => by
    have hmem' : CaseRecord.context x' ∈ s.records key := mem_records.2 ⟨hkey', hx'⟩
    rw [h] at hmem'
    exact CaseRecord.context.inj (List.mem_singleton.1 hmem')
  exact hx'

theorem attach_ok {c : AttachCommand} {documentId attachmentId : Uuid} {d : CaseDocument}
    (h : (s.attach E db c documentId attachmentId).2 = .ok d) :
    d ∈ (s.attach E db c documentId attachmentId).1.documents ∧ d.idempotencyKey = c.idempotencyKey := by
  unfold CaseStore.attach at h ⊢
  dsimp only at h ⊢
  split at h
  · cases h
  · next found hreplay =>
    obtain rfl := Except.ok.inj h
    unfold CaseStore.attachReplay at hreplay
    split at hreplay
    · cases hreplay
    · next d' hd' =>
      split_ifs at hreplay
      obtain rfl := Option.some.inj (Except.ok.inj hreplay)
      exact ⟨List.mem_of_find?_eq_some hd', by simpa using List.find?_some hd'⟩
  · split_ifs at h ⊢
    split at h
    · next s' hlocked =>
      obtain rfl := Except.ok.inj h
      obtain ⟨-, documents, status, -, -, -, rfl⟩ := attachLocked_ok hlocked
      exact ⟨List.mem_append_right _ (List.mem_singleton_self _), rfl⟩
    · cases h

/-- Why a match finds the stored context: it is under the key of the match, or there is none under the key and it has the
fingerprint of the context that the case has now. -/
def CaseStore.Finds (E : CaseEnv) (s : CaseStore) (db : Tables) (c : CaseMatchCommand) (x : CaseMatchContext) : Prop :=
  x.idempotencyKey = c.idempotencyKey ∨ (∀ y ∈ s.contexts, y.idempotencyKey ≠ c.idempotencyKey) ∧
    s.case.version = c.expectedCaseVersion ∧
    ∃ context, s.currentContext E db = .ok context ∧ x.requestFingerprint = E.fingerprint context.json

theorem plan_replay {c : CaseMatchCommand} {run : MatchRun} (h : s.planMatch E db c = .ok (.replay run)) :
    ∃ x ∈ s.contexts, s.Finds E db c x ∧ db.storedRun x = .ok run := by
  have hmap : ∀ x, (db.storedRun x).map MatchPlan.replay = .ok (.replay run) → db.storedRun x = .ok run := by
    intro x hx
    obtain ⟨run', hrun, heq⟩ := except_map_ok hx
    rw [hrun, MatchPlan.replay.inj heq]
  unfold CaseStore.planMatch at h
  split at h
  · next x hx =>
    exact ⟨x, List.mem_of_find?_eq_some hx, .inl (by simpa using List.find?_some hx), hmap x h⟩
  · next hnone =>
    have hkey : ∀ y ∈ s.contexts, y.idempotencyKey ≠ c.idempotencyKey := by simpa using hnone
    split_ifs at h with hversion
    split at h
    · cases h
    · next context hcontext =>
      split at h
      · next x hx =>
        have hprint : x.requestFingerprint = E.fingerprint context.json := by simpa using List.find?_some hx
        exact ⟨x, List.mem_of_find?_eq_some hx, .inr ⟨hkey, not_not.1 hversion, context, hcontext, hprint⟩, hmap x h⟩
      · cases h

/-- A match is answered with the run of the context under its key, or of one that it has found. -/
theorem matchCase_ok {c : CaseMatchCommand} {fresh : FreshIds} {run : MatchRun} (h : w.matchCase E c fresh = .ok run)
    (hn : w.next E (.matchCase c fresh) = some w') :
    run ∈ w'.world.db.runs ∧ ∃ x ∈ w'.store.contexts, x.matchRunId = run.id ∧ w.store.Finds E w.world.db c x := by
  unfold CaseWorld.matchCase at h
  simp only [CaseWorld.next] at hn
  split at h
  · cases h
  · next found hplan =>
    obtain rfl := Except.ok.inj h
    simp only [hplan] at hn
    obtain rfl := Option.some.inj hn
    obtain ⟨x, hx, hfinds, hrun⟩ := plan_replay hplan
    obtain ⟨hmem, hid⟩ := storedRun_ok hrun
    exact ⟨hmem, x, hx, hid.symm, hfinds⟩
  · next context hplan =>
    simp only [hplan] at hn
    obtain ⟨world, hworld, rfl⟩ := Option.map_eq_some_iff.1 hn
    split at h
    · cases h
    · next r hr =>
      obtain ⟨s', hs', rfl⟩ := except_map_ok h
      obtain ⟨po, x, -, -, hcalled⟩ := called_of_callMatch hr
      obtain ⟨-, status, -, hstore⟩ := finishMatch_ok hs'
      refine ⟨(db_of_call hr hworld).symm ▸ hcalled.mem, ?_⟩
      simp only [CaseStore.afterMatch, hr, hs', hstore]
      exact ⟨_, List.mem_append_right _ (List.mem_singleton_self _), rfl, .inl rfl⟩

/-- A file under the key of an attachment is the attachment. -/
theorem attach_again {c : AttachCommand} {d : CaseDocument} (h : s.records c.idempotencyKey = [.attachment d])
    (hfingerprint : d.requestFingerprint = E.fingerprint c.json) (documentId attachmentId : Uuid) :
    ∃ d', d'.bare = d ∧ s.attach E db c documentId attachmentId = (s, .ok d') := by
  obtain ⟨d', hd', hbare⟩ := find_document h
  have hfingerprint' : d'.requestFingerprint = E.fingerprint c.json := by
    rw [← hfingerprint, ← hbare]
    rfl
  refine ⟨d', hbare, ?_⟩
  simp only [CaseStore.attach, CaseStore.attachReplay, hd', if_pos hfingerprint']

/-- A match under the key of a context returns its run. -/
theorem match_again {c : CaseMatchCommand} {x : CaseMatchContext} {run : MatchRun}
    (h : s.records c.idempotencyKey = [.context x]) (hids : (db.runs.map (·.id)).Nodup) (hrun : run ∈ db.runs)
    (hid : run.id = x.matchRunId) : s.planMatch E db c = .ok (.replay run) := by
  simp only [CaseStore.planMatch, find_context h, storedRun_of_mem hids hrun hid]
  rfl

/-- Under the key of a confirmation the same values are confirmed for the same attachment, or the key is refused. -/
theorem confirmation_again (hsha : Function.Injective E.matching.dumps.sha256) {key : String} {c : CaseConfirmation}
    {payload : Json} (h : s.records key = [.confirmation c])
    (hfingerprint : c.requestFingerprint = E.fingerprint (confirmationJson c.caseDocumentId payload)) (id : Uuid) :
    s.confirmationReplay key (E.fingerprint (confirmationJson id payload)) =
      if id = c.caseDocumentId then .ok (some c) else .error caseKeyReused := by
  simp only [CaseStore.confirmationReplay, find_confirmation h, hfingerprint]
  refine if_congr ⟨fun heq => ?_, fun heq => by rw [heq]⟩ rfl rfl
  have hvalues := Json.Same.values (same_of_fingerprint hsha heq) (by simp only [List.map_cons, List.map_nil]) (by simp)
  simp only [List.map_cons, List.map_nil, List.forall₂_cons, List.Forall₂.nil, and_true] at hvalues
  exact (Uuid.str_inj (Json.same_str hvalues.1)).symm

end

end InvoiceOps
