import InvoiceOps.Cases.Service

/-! What holds of the rows of a case after every command: the attachments have distinct ids, a slot has one active
attachment, and an attachment has one confirmation, of the type of its role. -/

namespace InvoiceOps

/-- The attachments that have been confirmed, in the order of their confirmations. -/
def CaseStore.confirmedIds (s : CaseStore) : List Uuid := s.confirmations.map (·.caseDocumentId)

structure CaseOk (s : CaseStore) : Prop where
  documentIds : (s.documents.map (·.id)).Nodup
  slots : ∀ d ∈ s.documents, ∀ role, d.activeSlot = some role → d.role = role
  oneActive : ∀ d ∈ s.documents, ∀ d' ∈ s.documents, ∀ role, d.activeSlot = some role → d'.activeSlot = some role →
    d = d'
  confirmedOnce : s.confirmedIds.Nodup
  refers : ∀ c ∈ s.confirmations, ∃ d ∈ s.documents, d.id = c.caseDocumentId ∧
    (c.canonicalRecordType = .goodsReceipt ↔ d.role.isReceipt = true)

section

variable {E : CaseEnv} {s s' : CaseStore} {w w' : CaseWorld} {a : CaseAct} {c : AttachCommand} {d : CaseDocument}
  {role : DocumentRole}

theorem mem_of_active (h : s.active role = some d) : d ∈ s.documents ∧ d.activeSlot = some role :=
  ⟨List.mem_of_find?_eq_some h, by simpa using List.find?_some h⟩

theorem CaseOk.active_eq (h : CaseOk s) (hd : d ∈ s.documents) (hslot : d.activeSlot = some role) :
    s.active role = some d := by
  have hsome : (s.active role).isSome := List.find?_isSome.2 ⟨d, hd, by simpa using hslot⟩
  obtain ⟨d', hd'⟩ := Option.isSome_iff_exists.1 hsome
  obtain ⟨hmem, hslot'⟩ := mem_of_active hd'
  rw [hd', h.oneActive d' hmem d hd role hslot' hslot]

theorem CaseOk.confirmation_eq (h : CaseOk s) {c : CaseConfirmation} (hc : c ∈ s.confirmations) :
    s.confirmation c.caseDocumentId = some c := by
  have hnodup : (s.confirmations.map fun p => p.caseDocumentId).Nodup := h.confirmedOnce
  exact Lists.find?_key hnodup hc

theorem mem_of_confirmation {id : Uuid} {c : CaseConfirmation} (h : s.confirmation id = some c) :
    c ∈ s.confirmations ∧ c.caseDocumentId = id :=
  ⟨List.mem_of_find?_eq_some h, by simpa using List.find?_some h⟩

theorem confirmation_isSome {id : Uuid} : (s.confirmation id).isSome ↔ id ∈ s.confirmedIds := by
  simp [CaseStore.confirmation, CaseStore.confirmedIds]

/-- An attachment at a later time: it may have lost its slot. -/
def CaseDocument.Kept (d d' : CaseDocument) : Prop := d' = d ∨ d' = { d with activeSlot := none }

/-- A supersession takes a slot from the attachment that has it. -/
theorem CaseOk.supersede (hok : CaseOk s) {c : AttachCommand} {documents : List CaseDocument}
    (h : s.supersede c = .ok documents) : List.Forall₂ CaseDocument.Kept s.documents documents ∧
      ∀ d ∈ documents, ∀ role, c.role.slot = some role → d.activeSlot ≠ some role := by
  have hsame : List.Forall₂ CaseDocument.Kept s.documents s.documents := List.forall₂_same.2 fun _ _ => .inl rfl
  unfold CaseStore.supersede at h
  split at h
  · next slot hslot =>
    split at h
    · next active hactive =>
      split_ifs at h
      obtain rfl := Except.ok.inj h
      constructor
      · rw [List.forall₂_map_right_iff]
        refine List.forall₂_same.2 fun d _ => ?_
        split_ifs
        · exact .inr rfl
        · exact .inl rfl
      · intro d hd role hrole
        obtain rfl : slot = role := Option.some.inj (hslot.symm.trans hrole)
        obtain ⟨d₀, hd₀, rfl⟩ := List.mem_map.1 hd
        obtain ⟨hmem, hactiveSlot⟩ := mem_of_active hactive
        split_ifs with hid
        · simp
        · exact fun hd₀slot =>
            hid (congrArg CaseDocument.id (hok.oneActive d₀ hd₀ active hmem slot hd₀slot hactiveSlot))
    · next hnone =>
      split_ifs at h
      obtain rfl := Except.ok.inj h
      refine ⟨hsame, fun d hd role hrole hd' => ?_⟩
      obtain rfl : slot = role := Option.some.inj (hslot.symm.trans hrole)
      have hd'' := List.find?_eq_none.1 hnone d hd
      simp [hd'] at hd''
  · next hslot =>
    have hvacuous : ∀ d ∈ s.documents, ∀ role, c.role.slot = some role → d.activeSlot ≠ some role := by
      intro d _ role hrole
      rw [hslot] at hrole
      cases hrole
    split at h
    · obtain rfl := Except.ok.inj h
      exact ⟨hsame, hvacuous⟩
    · split_ifs at h
      obtain rfl := Except.ok.inj h
      exact ⟨hsame, hvacuous⟩

theorem CaseDocument.Kept.frame {d' : CaseDocument} (h : d.Kept d') :
    d'.id = d.id ∧ d'.role = d.role ∧ ∀ role, d'.activeSlot = some role → d' = d := by
  rcases h with rfl | rfl
  · exact ⟨rfl, rfl, fun _ _ => rfl⟩
  · exact ⟨rfl, rfl, fun _ hslot => by cases hslot⟩

theorem slot_eq {role role' : DocumentRole} (h : role.slot = some role') : role' = role := by
  cases role with
  | invoice => exact (Option.some.inj h).symm
  | purchaseOrder => exact (Option.some.inj h).symm
  | _ => cases h

/-- An attachment after another one has been attached: it was there, or it is the new one. -/
theorem Attached.mem (h : Attached E s c s') (hok : CaseOk s) {d' : CaseDocument} (hd' : d' ∈ s'.documents) :
    (∃ d ∈ s.documents, d.Kept d' ∧ ∀ role, c.role.slot = some role → d'.activeSlot ≠ some role) ∨
      (∀ d ∈ s.documents, d.id ≠ d'.id) ∧ d'.role = c.role ∧ d'.activeSlot = c.role.slot := by
  obtain ⟨documents, documentId, attachmentId, hsupersede, hids, hdocuments⟩ := h.documents
  obtain ⟨hkept, hslots⟩ := hok.supersede hsupersede
  rw [hdocuments] at hd'
  rcases List.mem_append.1 hd' with hold | hnew
  · obtain ⟨d, hd, hk⟩ := Lists.exists_of_forall₂_mem hkept hold
    exact .inl ⟨d, hd, hk, hslots d' hold⟩
  · rw [List.mem_singleton.1 hnew]
    exact .inr ⟨fun d hd => (hids d hd).1, rfl, rfl⟩

theorem Attached.ids (h : Attached E s c s') (hok : CaseOk s) : ∃ id, id ∉ s.documents.map (·.id) ∧
    s'.documents.map (·.id) = s.documents.map (·.id) ++ [id] := by
  obtain ⟨documents, documentId, attachmentId, hsupersede, hids, hdocuments⟩ := h.documents
  obtain ⟨hkept, -⟩ := hok.supersede hsupersede
  have hmap : documents.map (·.id) = s.documents.map (·.id) :=
    Lists.map_eq_map_of_forall₂ (hkept.flip.imp fun _ _ hk => (CaseDocument.Kept.frame hk).1)
  refine ⟨attachmentId, fun hmem => ?_, ?_⟩
  · obtain ⟨d, hd, hid⟩ := List.mem_map.1 hmem
    exact (hids d hd).1 hid
  · rw [hdocuments, List.map_append, hmap]
    rfl

/-- An attachment is still there after another one has been attached. -/
theorem Attached.kept (h : Attached E s c s') (hok : CaseOk s) (hd : d ∈ s.documents) :
    ∃ d' ∈ s'.documents, d'.id = d.id ∧ d'.role = d.role := by
  obtain ⟨documents, documentId, attachmentId, hsupersede, -, hdocuments⟩ := h.documents
  obtain ⟨d', hd', hk⟩ := Lists.exists_of_forall₂_mem (hok.supersede hsupersede).1.flip hd
  obtain ⟨hid, hrole, -⟩ := CaseDocument.Kept.frame hk
  exact ⟨d', hdocuments ▸ List.mem_append_left _ hd', hid, hrole⟩

theorem CaseOk.attach (hok : CaseOk s) (h : Attached E s c s') : CaseOk s' := by
  obtain ⟨id, hfresh, hids⟩ := h.ids hok
  refine ⟨?_, fun d' hd' role hslot => ?_, fun d₁ hd₁ d₂ hd₂ role hslot₁ hslot₂ => ?_, ?_, fun p hp => ?_⟩
  · rw [hids, ← List.concat_eq_append]
    exact hok.documentIds.concat hfresh
  · rcases h.mem hok hd' with ⟨d, hd, hk, -⟩ | ⟨-, hrole, hslot'⟩
    · obtain rfl := hk.frame.2.2 role hslot
      exact hok.slots d' hd role hslot
    · exact hrole.trans (slot_eq (hslot'.symm.trans hslot)).symm
  · rcases h.mem hok hd₁ with ⟨d, hd, hk, hne⟩ | ⟨hnew, -, hslot⟩
    · obtain rfl := hk.frame.2.2 role hslot₁
      rcases h.mem hok hd₂ with ⟨d', hd', hk', -⟩ | ⟨-, -, hslot⟩
      · obtain rfl := hk'.frame.2.2 role hslot₂
        exact hok.oneActive d₁ hd d₂ hd' role hslot₁ hslot₂
      · exact absurd hslot₁ (hne role (hslot ▸ hslot₂))
    · rcases h.mem hok hd₂ with ⟨d', hd', hk', hne⟩ | ⟨hnew', -, -⟩
      · exact absurd hslot₂ (hne role (hslot ▸ hslot₁))
      · -- both are the new one
        have hid : ∀ d' ∈ s'.documents, (∀ d ∈ s.documents, d.id ≠ d'.id) → d'.id = id := by
          intro d' hd' hne
          have hmem : d'.id ∈ s'.documents.map (·.id) := List.mem_map_of_mem hd'
          rw [hids] at hmem
          rcases List.mem_append.1 hmem with hold | hnew
          · obtain ⟨d, hd, heq⟩ := List.mem_map.1 hold
            exact absurd heq (hne d hd)
          · exact List.mem_singleton.1 hnew
        have hnodup : (s'.documents.map (·.id)).Nodup := by
          rw [hids, ← List.concat_eq_append]
          exact hok.documentIds.concat hfresh
        exact List.inj_on_of_nodup_map hnodup hd₁ hd₂ ((hid d₁ hd₁ hnew).trans (hid d₂ hd₂ hnew').symm)
  · rw [CaseStore.confirmedIds, h.rest.1]
    exact hok.confirmedOnce
  · rw [h.rest.1] at hp
    obtain ⟨d, hd, hid, htype⟩ := hok.refers p hp
    obtain ⟨d', hd', hid', hrole⟩ := h.kept hok hd
    exact ⟨d', hd', hid'.trans hid, hrole ▸ htype⟩

theorem CaseOk.confirm {p : CaseConfirmation} (hok : CaseOk s) (h : Confirmed s p s') (hd : d ∈ s.documents)
    (hid : d.id = p.caseDocumentId) (htype : p.canonicalRecordType = .goodsReceipt ↔ d.role.isReceipt = true) :
    CaseOk s' := by
  rw [h.store]
  refine ⟨hok.documentIds, hok.slots, hok.oneActive, ?_, fun p' hp' => ?_⟩
  · refine Lists.nodup_map_snoc hok.confirmedOnce fun hmem => ?_
    obtain ⟨p', hp', heq⟩ := List.mem_map.1 hmem
    exact h.fresh p' hp' heq
  · rcases List.mem_append.1 hp' with hold | hnew
    · exact hok.refers p' hold
    · rw [List.mem_singleton.1 hnew]
      exact ⟨d, hd, hid, htype⟩

theorem CaseOk.congr (hok : CaseOk s) (hdocuments : s'.documents = s.documents)
    (hconfirmations : s'.confirmations = s.confirmations) : CaseOk s' := by
  obtain ⟨h1, h2, h3, h4, h5⟩ := hok
  unfold CaseStore.confirmedIds at h4
  refine ⟨?_, ?_, ?_, ?_, ?_⟩
  all_goals simp only [CaseStore.confirmedIds, hdocuments, hconfirmations]
  all_goals assumption

theorem finishMatch_ok {cmd : CaseMatchCommand} {loaded : PayableCase} {context : CaseContext} {run : MatchRun}
    {db : Tables} (h : s.finishMatch E db cmd loaded context run = .ok s') :
    (∀ x ∈ s.contexts, x.requestFingerprint ≠ E.fingerprint context.json) ∧
    ∃ status, status = (if run.decision = .matched ∧ db.reviews.cases.find? (·.matchRunId = run.id) = none
        then CaseStatus.matched else .needsReview) ∧
      s' = { s with
        case := s.case.write loaded status
        contexts := s.contexts ++ [⟨run.id, context, cmd.idempotencyKey, E.fingerprint context.json⟩] } := by
  unfold CaseStore.finishMatch at h
  split at h
  · cases h
  · next hkeys =>
    obtain rfl := Except.ok.inj h
    exact ⟨fun x hx heq => hkeys ⟨x, hx, .inr heq⟩, _, rfl, rfl⟩

theorem isReceipt_of_receiptAttachment {documentId : Uuid} (h : s.receiptAttachment documentId = some d) :
    d ∈ s.documents ∧ d.role.isReceipt = true := by
  have hfound := List.find?_some h
  simp only [decide_eq_true_eq] at hfound
  exact ⟨List.mem_of_find?_eq_some h, hfound.2⟩

theorem CaseOk.step (hok : CaseOk w.store) (hstep : CaseMoves E w a w') : CaseOk w'.store := by
  cases hstep with
  | service => exact hok
  | rows hdocuments hconfirmations => exact hok.congr hdocuments hconfirmations
  | attach h => exact hok.attach h
  | order _ hd hc htype _ h _ =>
    obtain ⟨hmem, hslot⟩ := mem_of_active hd
    refine hok.confirm h hmem hc.symm ?_
    rw [htype, hok.slots _ hmem _ hslot]
    simp [DocumentRole.isReceipt]
  | receipt _ hd _ hc htype _ _ _ _ _ h _ =>
    obtain ⟨hmem, hrole⟩ := isReceipt_of_receiptAttachment hd
    exact hok.confirm h hmem hc.symm (by simp [htype, hrole])
  | matched _ _ _ _ h =>
    obtain ⟨-, status, -, rfl⟩ := finishMatch_ok h
    exact hok.congr rfl rfl

end

theorem caseOk_created : CaseOk .created := by
  refine ⟨.nil, ?_, ?_, .nil, ?_⟩
  all_goals intro _ hmem
  all_goals cases hmem

end InvoiceOps
