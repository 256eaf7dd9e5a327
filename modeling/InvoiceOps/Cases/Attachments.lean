import InvoiceOps.Cases.Matched

/-! The attachments of a case. An attachment is active in two ways: a slot for an invoice and a purchase order, no
successor for the others. After every sequence of commands the two agree, the attachments that replace each other
form chains, and a command that is sent again finds the attachment it has made. -/

namespace InvoiceOps

open Json StateMachine

/-- The attachments of a case and how they replace each other. -/
structure CaseStore.WellAttached (s : CaseStore) : Prop where
  oneActive : ∀ d ∈ s.documents, ∀ d' ∈ s.documents, ∀ slot, d.activeSlot = some slot → d'.activeSlot = some slot →
    d = d'
  active_iff : ∀ d ∈ s.documents, ∀ slot, d.activeSlot = some slot ↔
    d.role.slot = some slot ∧ s.hasSuccessor d.id = false
  oneSuccessor : ∀ d ∈ s.documents, ∀ d' ∈ s.documents, ∀ id, d.supersedesId = some id → d'.supersedesId = some id →
    d = d'
  successor : ∀ d' ∈ s.documents, ∀ id, d'.supersedesId = some id →
    ∃ d ∈ s.documents, d.id = id ∧ d.role = d'.role ∧ d.attachmentOrder < d'.attachmentOrder
  orders : s.documents.map (·.attachmentOrder) = List.range' 1 s.documents.length

/-- The command asks for the attachment `d` again: the same role, content and attachment to replace. -/
def CaseStore.AsksAgain (s : CaseStore) (c : AttachCommand) (d : CaseDocument) : Prop :=
  c.role = d.role ∧ c.supersedesId = d.supersedesId ∧ ∃ u ∈ s.uploads, u.id = d.documentId ∧ u.sha256 = c.sha256

theorem DocumentRole.value_inj {r r' : DocumentRole} (h : r.value = r'.value) : r = r' := by
  cases r with
  | invoice =>
    cases r' with
    | invoice => rfl
    | _ => simp [DocumentRole.value] at h
  | purchaseOrder =>
    cases r' with
    | purchaseOrder => rfl
    | _ => simp [DocumentRole.value] at h
  | goodsReceipt =>
    cases r' with
    | goodsReceipt => rfl
    | _ => simp [DocumentRole.value] at h
  | deliveryNote =>
    cases r' with
    | deliveryNote => rfl
    | _ => simp [DocumentRole.value] at h

theorem optionJson_of_same {x y : Option String} (h : Same (optionJson x) (optionJson y)) : x = y := by
  cases x with
  | none =>
    cases y with
    | none => rfl
    | some _ => cases h
  | some s =>
    cases y with
    | none => cases h
    | some t => rw [same_str h]

theorem attach_of_same {c c' : AttachCommand} (h : Same c.json c'.json) :
    c.role = c'.role ∧ c.sha256 = c'.sha256 ∧ c.supersedesId = c'.supersedesId := by
  have hvalues := Same.values h (by simp only [List.map_cons, List.map_nil]) (by simp)
  simp only [List.map_cons, List.map_nil, List.forall₂_cons, List.Forall₂.nil, and_true] at hvalues
  obtain ⟨hrole, hsha, hsupersedes⟩ := hvalues
  have hstr : Function.Injective Uuid.str := fun _ _ heq => Uuid.str_inj heq
  exact ⟨DocumentRole.value_inj (same_str hrole), same_str hsha,
    Option.map_injective hstr (optionJson_of_same hsupersedes)⟩

theorem attachJson_congr {c c' : AttachCommand} (hrole : c.role = c'.role) (hsha : c.sha256 = c'.sha256)
    (hsupersedes : c.supersedesId = c'.supersedesId) : c.json = c'.json := by
  simp only [AttachCommand.json, hrole, hsha, hsupersedes]

/-- An attachment loses its slot when the command replaces it. -/
def AttachCommand.retire (c : AttachCommand) (d : CaseDocument) : CaseDocument :=
  if c.supersedesId = some d.id then { d with activeSlot := none } else d

section

variable {E : CaseEnv} {s s' : CaseStore} {c : AttachCommand} {d : CaseDocument}

theorem hasSuccessor_eq_false {id : Uuid} :
    s.hasSuccessor id = false ↔ ∀ d ∈ s.documents, d.supersedesId ≠ some id := by
  simp [CaseStore.hasSuccessor]

theorem retire_frame (c : AttachCommand) (d : CaseDocument) : (c.retire d).id = d.id ∧ (c.retire d).role = d.role ∧
    (c.retire d).supersedesId = d.supersedesId ∧ (c.retire d).attachmentOrder = d.attachmentOrder := by
  unfold AttachCommand.retire
  split_ifs
  · exact ⟨rfl, rfl, rfl, rfl⟩
  · exact ⟨rfl, rfl, rfl, rfl⟩

theorem retire_contents (c : AttachCommand) (d : CaseDocument) : (c.retire d).documentId = d.documentId ∧
    (c.retire d).idempotencyKey = d.idempotencyKey ∧ (c.retire d).requestFingerprint = d.requestFingerprint := by
  unfold AttachCommand.retire
  split_ifs
  · exact ⟨rfl, rfl, rfl⟩
  · exact ⟨rfl, rfl, rfl⟩

theorem retire_slot {slot : DocumentRole} :
    (c.retire d).activeSlot = some slot ↔ c.supersedesId ≠ some d.id ∧ d.activeSlot = some slot := by
  unfold AttachCommand.retire
  split_ifs with hid
  · simp [hid]
  · simp [hid]

/-- A supersession is of an attachment of the same role that has not been superseded, and takes its slot. -/
theorem CaseStore.WellAttached.supersede (h : s.WellAttached) (hok : CaseOk s) {documents : List CaseDocument}
    (hs : s.supersede c = .ok documents) : documents = s.documents.map c.retire ∧
      ∀ id, c.supersedesId = some id → ∃ d ∈ s.documents, d.id = id ∧ d.role = c.role ∧ s.hasSuccessor id = false := by
  have hnone : c.supersedesId = none → s.documents.map c.retire = s.documents := by
    intro hnone
    refine (List.map_congr_left fun d _ => ?_).trans (List.map_id _)
    simp [AttachCommand.retire, hnone]
  unfold CaseStore.supersede at hs
  split at hs
  · next slot hslot =>
    split at hs
    · next active hactive =>
      split_ifs at hs with hid
      obtain ⟨hmem, hactiveSlot⟩ := mem_of_active hactive
      obtain ⟨hrole, hlast⟩ := (h.active_iff active hmem slot).1 hactiveSlot
      refine ⟨(Except.ok.inj hs).symm.trans (List.map_congr_left fun d _ => ?_), fun id hid' => ?_⟩
      · simp only [AttachCommand.retire, hid, Option.some.injEq, eq_comm]
      · obtain rfl := Option.some.inj (hid.symm.trans hid')
        exact ⟨active, hmem, rfl, (slot_eq hrole).symm.trans (slot_eq hslot), hlast⟩
    · split_ifs at hs with hid
      refine ⟨(Except.ok.inj hs).symm.trans (hnone hid).symm, fun id hid' => ?_⟩
      rw [hid] at hid'
      cases hid'
  · next hslot =>
    split at hs
    · next hid =>
      refine ⟨(Except.ok.inj hs).symm.trans (hnone hid).symm, fun id hid' => ?_⟩
      rw [hid] at hid'
      cases hid'
    · next id hid =>
      split_ifs at hs with hfound
      obtain ⟨d, hd, hfound⟩ := (Option.any_eq_true _ _).1 hfound
      simp only [Bool.and_eq_true, decide_eq_true_eq, Bool.not_eq_true'] at hfound
      obtain ⟨hrole, hlast⟩ := hfound
      have hmem := List.mem_of_find?_eq_some hd
      obtain rfl : d.id = id := by simpa using List.find?_some hd
      refine ⟨(Except.ok.inj hs).symm.trans ?_, fun id' hid' => ?_⟩
      · -- no attachment of a role without a slot has one
        refine ((List.map_congr_left fun d' hd' => ?_).trans (List.map_id _)).symm
        unfold AttachCommand.retire
        split_ifs with hid'
        · obtain rfl : d = d' := List.inj_on_of_nodup_map hok.documentIds hmem hd' (Option.some.inj (hid.symm.trans hid'))
          cases hd'slot : d.activeSlot with
          | none => rw [← hd'slot]; rfl
          | some slot =>
            have hslot' := ((h.active_iff d hmem slot).1 hd'slot).1
            rw [hrole, hslot] at hslot'
            cases hslot'
        · rfl
      · obtain rfl := Option.some.inj (hid.symm.trans hid')
        exact ⟨d, hmem, rfl, hrole, hlast⟩

theorem mem_attached {documentId attachmentId : Uuid}
    (hdocuments : s'.documents = s.documents.map c.retire ++ [s.attachment E c documentId attachmentId])
    {d' : CaseDocument} (hd' : d' ∈ s'.documents) :
    (∃ d ∈ s.documents, d' = c.retire d) ∨ d' = s.attachment E c documentId attachmentId := by
  rw [hdocuments] at hd'
  rcases List.mem_append.1 hd' with hold | hnew
  · obtain ⟨d, hd, rfl⟩ := List.mem_map.1 hold
    exact .inl ⟨d, hd, rfl⟩
  · exact .inr (List.mem_singleton.1 hnew)

theorem hasSuccessor_attached {documentId attachmentId : Uuid}
    (hdocuments : s'.documents = s.documents.map c.retire ++ [s.attachment E c documentId attachmentId]) (id : Uuid) :
    s'.hasSuccessor id = false ↔ s.hasSuccessor id = false ∧ c.supersedesId ≠ some id := by
  have hretire : ∀ d : CaseDocument, (c.retire d).supersedesId = d.supersedesId := fun d => (retire_frame c d).2.2.1
  rw [hasSuccessor_eq_false, hasSuccessor_eq_false, hdocuments]
  simp only [List.mem_append, List.mem_map, List.mem_singleton, or_imp, forall_and, forall_eq, forall_exists_index,
    and_imp, forall_apply_eq_imp_iff₂, hretire]
  rfl

theorem CaseStore.WellAttached.attach (h : s.WellAttached) (hok : CaseOk s) (hok' : CaseOk s')
    {documents : List CaseDocument} {documentId attachmentId : Uuid} (hsupersede : s.supersede c = .ok documents)
    (hids : ∀ d ∈ s.documents, d.id ≠ attachmentId)
    (hdocuments : s'.documents = documents ++ [s.attachment E c documentId attachmentId]) : s'.WellAttached := by
  obtain ⟨rfl, hreplaced⟩ := h.supersede hok hsupersede
  have horder : (s.attachment E c documentId attachmentId).attachmentOrder = s.documents.length + 1 := by
    simp only [CaseStore.attachment, h.orders, Lists.foldl_max_range']
  have hlt : ∀ d ∈ s.documents, d.attachmentOrder < s.documents.length + 1 := by
    intro d hd
    have hmem : d.attachmentOrder ∈ s.documents.map (·.attachmentOrder) := List.mem_map_of_mem hd
    rw [h.orders] at hmem
    have := List.mem_range'_1.1 hmem
    omega
  -- the new attachment has no successor yet
  have hnew : s'.hasSuccessor attachmentId = false := by
    rw [hasSuccessor_attached hdocuments, hasSuccessor_eq_false]
    refine ⟨fun d hd hid => ?_, fun hid => ?_⟩
    · obtain ⟨d₀, hd₀, hid₀, -⟩ := h.successor d hd attachmentId hid
      exact hids d₀ hd₀ hid₀
    · obtain ⟨d₀, hd₀, hid₀, -⟩ := hreplaced attachmentId hid
      exact hids d₀ hd₀ hid₀
  refine ⟨hok'.oneActive, fun d' hd' slot => ?_, fun d₁ hd₁ d₂ hd₂ id hid₁ hid₂ => ?_, fun d' hd' id hid => ?_, ?_⟩
  · rcases mem_attached hdocuments hd' with ⟨d, hd, rfl⟩ | rfl
    · obtain ⟨hid, hrole, -⟩ := retire_frame c d
      rw [retire_slot, hid, hrole, hasSuccessor_attached hdocuments, h.active_iff d hd]
      tauto
    · exact ⟨fun hslot => ⟨hslot, hnew⟩, fun hslot => hslot.1⟩
  · -- an attachment that is replaced has had no successor before
    have hfirst : ∀ d ∈ s.documents, c.supersedesId = some id → (c.retire d).supersedesId ≠ some id := by
      intro d hd hid heq
      rw [(retire_frame c d).2.2.1] at heq
      obtain ⟨-, -, -, -, hlast⟩ := hreplaced id hid
      exact hasSuccessor_eq_false.1 hlast d hd heq
    rcases mem_attached hdocuments hd₁ with ⟨d, hd, rfl⟩ | rfl
    · rcases mem_attached hdocuments hd₂ with ⟨d', hd', rfl⟩ | rfl
      · rw [(retire_frame c d).2.2.1] at hid₁
        rw [(retire_frame c d').2.2.1] at hid₂
        rw [h.oneSuccessor d hd d' hd' id hid₁ hid₂]
      · exact absurd hid₁ (hfirst d hd hid₂)
    · rcases mem_attached hdocuments hd₂ with ⟨d', hd', rfl⟩ | rfl
      · exact absurd hid₂ (hfirst d' hd' hid₁)
      · rfl
  · have hkept : ∀ d ∈ s.documents, c.retire d ∈ s'.documents := fun d hd =>
      hdocuments ▸ List.mem_append_left _ (List.mem_map_of_mem hd)
    rcases mem_attached hdocuments hd' with ⟨d, hd, rfl⟩ | rfl
    · obtain ⟨-, hrole, hsupersedes, horder'⟩ := retire_frame c d
      obtain ⟨d₀, hd₀, hid₀, hrole₀, hlt₀⟩ := h.successor d hd id (hsupersedes ▸ hid)
      obtain ⟨hid', hrole', -, horder₀⟩ := retire_frame c d₀
      exact ⟨c.retire d₀, hkept d₀ hd₀, hid'.trans hid₀, by rw [hrole, hrole', hrole₀], by rw [horder', horder₀]; exact hlt₀⟩
    · obtain ⟨d₀, hd₀, hid₀, hrole₀, -⟩ := hreplaced id hid
      obtain ⟨hid', hrole', -, horder₀⟩ := retire_frame c d₀
      exact ⟨c.retire d₀, hkept d₀ hd₀, hid'.trans hid₀, hrole'.trans hrole₀, by rw [horder, horder₀]; exact hlt d₀ hd₀⟩
  · have hmap : (s.documents.map c.retire).map (·.attachmentOrder) = s.documents.map (·.attachmentOrder) := by
      rw [List.map_map]
      exact List.map_congr_left fun d _ => (retire_frame c d).2.2.2
    rw [hdocuments, List.map_append, hmap, h.orders, List.map_singleton, horder, List.length_append, List.length_map,
      List.length_singleton, List.range'_concat, Nat.one_mul, Nat.add_comm 1]

theorem CaseStore.WellAttached.congr (h : s.WellAttached) (hdocuments : s'.documents = s.documents) :
    s'.WellAttached := by
  obtain ⟨case, documents, confirmations, contexts, uploads, supporting⟩ := s
  obtain ⟨case', documents', confirmations', contexts', uploads', supporting'⟩ := s'
  obtain rfl : documents' = documents := hdocuments
  exact ⟨h.oneActive, h.active_iff, h.oneSuccessor, h.successor, h.orders⟩

end

/-- The document has this content. -/
def CaseStore.Content (s : CaseStore) (documentId : Uuid) (sha256 : String) : Prop :=
  ∃ u ∈ s.uploads, u.id = documentId ∧ u.sha256 = sha256

/-- The attachments are well formed, and carry the keys and the fingerprints of the commands that made them. -/
structure AttachInv (E : CaseEnv) (w : SessionWorld) : Prop where
  sessions : SessionsInv E w
  attached : w.store.WellAttached
  keys : (w.store.documents.map (·.idempotencyKey)).Nodup
  uploads : (w.store.uploads.map (·.id)).Nodup
  ingested : ∀ i c row jobDone documentId, w.sessions i = some (.ingested c row jobDone documentId) →
    w.store.Content documentId c.sha256
  made : ∀ d ∈ w.store.documents, ∃ c : AttachCommand, c.role = d.role ∧ c.supersedesId = d.supersedesId ∧
    w.store.Content d.documentId c.sha256 ∧ d.requestFingerprint = E.fingerprint c.json

section

variable {E : CaseEnv} {w w' : SessionWorld} {a : SessionAct}

/-- What a step does to the attachments: nothing, or one is attached to a document that has been ingested. -/
theorem documents_of_moves (h : SessionMoves E w a w') : w'.store.documents = w.store.documents ∨
    ∃ i c row jobDone documentId attachmentId documents,
      w.sessions i = some (.ingested c row jobDone documentId) ∧ w.store.supersede c = .ok documents ∧
      (∀ d ∈ w.store.documents, d.id ≠ attachmentId ∧ d.idempotencyKey ≠ c.idempotencyKey) ∧
      w'.store.documents = documents ++ [w.store.attachment E c documentId attachmentId] := by
  cases h with
  | enter hs => exact .inl hs.documents
  | work _ hends =>
    rw [work_store]
    exact .inl hends.works.documents
  | confirm _ _ _ hconfirmed =>
    have hdocuments := congrArg CaseStore.documents hconfirmed.store
    exact .inl hdocuments
  | finish _ _ hs =>
    obtain ⟨-, status, -, rfl⟩ := finishMatch_ok hs
    exact .inl rfl
  | @attach i attachmentId documentId c row jobDone s _ hi hs =>
    obtain ⟨-, documents, status, hsupersede, -, hfresh, rfl⟩ := attachLocked_ok hs
    exact .inr ⟨i, c, row, jobDone, documentId, attachmentId, documents, hi, hsupersede, hfresh, rfl⟩
  | _ => exact .inl rfl

/-- Uploads keep their ids and contents, and new ones have new ids. -/
theorem uploads_of_moves (h : SessionMoves E w a w') (hids : (w.store.uploads.map (·.id)).Nodup) :
    (w'.store.uploads.map (·.id)).Nodup ∧
      ∀ documentId sha256, w.store.Content documentId sha256 → w'.store.Content documentId sha256 := by
  have hsame : ∀ {s : CaseStore}, s.uploads = w.store.uploads → (s.uploads.map (·.id)).Nodup ∧
      ∀ documentId sha256, w.store.Content documentId sha256 → s.Content documentId sha256 := by
    intro s heq
    unfold CaseStore.Content
    rw [heq]
    exact ⟨hids, fun _ _ hcontent => hcontent⟩
  have hkept : ∀ {s : CaseStore}, List.Forall₂ (fun u u' => u'.id = u.id ∧ u'.sha256 = u.sha256) w.store.uploads s.uploads →
      (s.uploads.map (·.id)).Nodup ∧
        ∀ documentId sha256, w.store.Content documentId sha256 → s.Content documentId sha256 := by
    intro s hall
    constructor
    · rw [← Lists.map_eq_map_of_forall₂ (hall.imp fun _ _ hu => hu.1.symm)]
      exact hids
    · rintro documentId sha256 ⟨u, hu, hid, hsha⟩
      obtain ⟨u', hu', hid', hsha'⟩ := Lists.exists_of_forall₂_mem hall.flip hu
      exact ⟨u', hu', hid'.trans hid, hsha'.trans hsha⟩
  cases h with
  | enter hs =>
    rcases hs.uploads with heq | ⟨u, hfresh, -, heq⟩ | ⟨documentId, loaded, heq⟩
    · exact hsame heq
    · refine ⟨?_, ?_⟩
      · show List.Nodup (List.map _ _)
        rw [heq]
        exact Lists.nodup_map_snoc hids hfresh
      · rintro documentId sha256 ⟨u', hu', hcontent⟩
        exact ⟨u', heq ▸ List.mem_append_left _ hu', hcontent⟩
    · exact hkept (heq ▸ setJobs documentId loaded .processing w.store.uploads)
  | work _ hends =>
    rw [work_store]
    exact hkept hends.works.uploads
  | confirm _ _ _ hconfirmed =>
    have huploads := congrArg CaseStore.uploads hconfirmed.store
    exact hsame huploads
  | finish _ _ hs =>
    obtain ⟨-, status, -, rfl⟩ := finishMatch_ok hs
    exact hsame rfl
  | attach _ _ hs =>
    obtain ⟨-, documents, status, -, -, -, rfl⟩ := attachLocked_ok hs
    exact hsame rfl
  | _ => exact hsame rfl

theorem AttachInv.step (h : AttachInv E w) (hstep : SessionMoves E w a w') : AttachInv E w' := by
  obtain ⟨huploads, hcontent⟩ := uploads_of_moves hstep h.uploads
  have hingested : ∀ i c row jobDone documentId, w'.sessions i = some (.ingested c row jobDone documentId) →
      w'.store.Content documentId c.sha256 := by
    intro i c row jobDone documentId hi
    rcases session_cases hstep hi with hold | henters | hcalls
    · exact hcontent _ _ (h.ingested i c row jobDone documentId hold)
    · cases henters with
      | ingested _ _ hupload => exact hupload
    · cases hcalls
  have hsessions := h.sessions.step hstep
  rcases documents_of_moves hstep with hsame |
    ⟨i, c, row, jobDone, documentId, attachmentId, documents, hi, hsupersede, hfresh, hdocuments⟩
  · refine ⟨hsessions, h.attached.congr hsame, by rw [hsame]; exact h.keys, huploads, hingested, fun d hd => ?_⟩
    obtain ⟨c, hrole, hsupersedes, hc, hfingerprint⟩ := h.made d (hsame ▸ hd)
    exact ⟨c, hrole, hsupersedes, hcontent _ _ hc, hfingerprint⟩
  · have hattached := h.attached.attach h.sessions.rows hsessions.rows hsupersede (fun d hd => (hfresh d hd).1) hdocuments
    obtain ⟨rfl, -⟩ := h.attached.supersede h.sessions.rows hsupersede
    refine ⟨hsessions, hattached, ?_, huploads, hingested, fun d' hd' => ?_⟩
    · have hmap : (w.store.documents.map c.retire).map (·.idempotencyKey) =
          w.store.documents.map (·.idempotencyKey) := by
        rw [List.map_map]
        exact List.map_congr_left fun d _ => (retire_contents c d).2.1
      rw [hdocuments]
      refine Lists.nodup_map_snoc (hmap ▸ h.keys) fun hmem => ?_
      obtain ⟨d, hd, hkey⟩ := List.mem_map.1 (hmap ▸ hmem)
      exact (hfresh d hd).2 hkey
    · rcases mem_attached hdocuments hd' with ⟨d, hd, rfl⟩ | rfl
      · obtain ⟨c', hrole, hsupersedes, hc, hfingerprint⟩ := h.made d hd
        obtain ⟨-, hrole', hsupersedes', -⟩ := retire_frame c d
        obtain ⟨hdocument, -, hfingerprint'⟩ := retire_contents c d
        exact ⟨c', hrole.trans hrole'.symm, hsupersedes.trans hsupersedes'.symm, hdocument ▸ hcontent _ _ hc,
          hfingerprint'.trans hfingerprint⟩
      · exact ⟨c, rfl, rfl, hcontent _ _ (h.ingested i c row jobDone documentId hi), rfl⟩

theorem attachInv_of_run {acts : List SessionAct} (h : Steps (SessionWorld.next E) .initial acts w) :
    AttachInv E w := by
  refine h.invariant (fun s a t hs hn => hs.step (sessionMoves_of_next hn)) ?_
  refine ⟨sessionsInv_initial, ⟨?_, ?_, ?_, ?_, rfl⟩, .nil, .nil, fun _ _ _ _ _ hi => ?_, ?_⟩
  case refine_5 => cases hi
  all_goals intro _ hmem
  all_goals cases hmem

/-- A command with a key that has been used finds the attachment made with it. -/
theorem AttachInv.attach_again (h : AttachInv E w) (hsha : Function.Injective E.matching.dumps.sha256)
    {d : CaseDocument} (hd : d ∈ w.store.documents) {c : AttachCommand} (hkey : c.idempotencyKey = d.idempotencyKey)
    (db : Tables) (documentId attachmentId : Uuid) :
    (w.store.AsksAgain c d → w.store.attach E db c documentId attachmentId = (w.store, .ok d)) ∧
      (¬ w.store.AsksAgain c d → w.store.attach E db c documentId attachmentId = (w.store, .error caseKeyReused)) := by
  have hfind := Lists.find?_key h.keys hd
  obtain ⟨made, hrole, hsupersedes, ⟨u, hu, hid, hcontent⟩, hfingerprint⟩ := h.made d hd
  have hiff : d.requestFingerprint = E.fingerprint c.json ↔ w.store.AsksAgain c d := by
    rw [hfingerprint]
    constructor
    · intro heq
      obtain ⟨hrole', hsha', hsupersedes'⟩ := attach_of_same (same_of_fingerprint hsha heq)
      exact ⟨hrole'.symm.trans hrole, hsupersedes'.symm.trans hsupersedes, u, hu, hid, hcontent.trans hsha'⟩
    · rintro ⟨hrole', hsupersedes', u', hu', hid', hsha'⟩
      obtain rfl : u' = u := List.inj_on_of_nodup_map h.uploads hu' hu (hid'.trans hid.symm)
      rw [attachJson_congr (hrole.trans hrole'.symm) (hcontent.symm.trans hsha') (hsupersedes.trans hsupersedes'.symm)]
  constructor
  · intro hagain
    simp only [CaseStore.attach, CaseStore.attachReplay, hkey, hfind, if_pos (hiff.2 hagain)]
  · intro hother
    simp only [CaseStore.attach, CaseStore.attachReplay, hkey, hfind, if_neg (mt hiff.1 hother)]

end

/-- In every state that commands and workers reach on a case: a slot has one active attachment at most, the one of
its role that no other supersedes; supersessions are chains of attachments of one role, in their order, which is
`1..n`; and a command with a key that has been used returns the attachment when it asks for it again, is refused
otherwise, and changes nothing. -/
theorem attachments_wellFormed (E : CaseEnv) (hsha : Function.Injective E.matching.dumps.sha256)
    {acts : List SessionAct} {w : SessionWorld} (h : Steps (SessionWorld.next E) .initial acts w) :
    w.store.WellAttached ∧ ∀ d ∈ w.store.documents, ∀ c : AttachCommand, c.idempotencyKey = d.idempotencyKey →
      ∀ documentId attachmentId,
        (w.store.AsksAgain c d → w.store.attach E w.world.db c documentId attachmentId = (w.store, .ok d)) ∧
        (¬ w.store.AsksAgain c d →
          w.store.attach E w.world.db c documentId attachmentId = (w.store, .error caseKeyReused)) := by
  have hinv := attachInv_of_run h
  refine ⟨hinv.attached, fun d hd c hkey documentId attachmentId => ?_⟩
  exact hinv.attach_again hsha hd hkey w.world.db documentId attachmentId

/-- The purchase order that has replaced another is attached again, once as it was and once as a receipt. -/
theorem attachments_wellFormed_replacedOrder : ∃ w d, Steps (SessionWorld.next tapCaseEnv) .initial replacedOrderActs w ∧
    w.store.documents.length = 4 ∧ w.store.WellAttached ∧ d ∈ w.store.documents ∧
    d.supersedesId = some (Uuid.ofNat 101) ∧
    w.store.attach tapCaseEnv w.world.db ⟨.purchaseOrder, "attach 300", 1, "300", some (Uuid.ofNat 101)⟩ (Uuid.ofNat 400)
      (Uuid.ofNat 401) = (w.store, .ok d) ∧
    w.store.attach tapCaseEnv w.world.db ⟨.goodsReceipt, "attach 300", 1, "300", some (Uuid.ofNat 101)⟩ (Uuid.ofNat 400)
      (Uuid.ofNat 401) = (w.store, .error caseKeyReused) := by
  have hexec : (exec (SessionWorld.next tapCaseEnv) .initial replacedOrderActs).any (fun w =>
      w.store.documents.length = 4 ∧ ∃ d ∈ w.store.documents, d.idempotencyKey = "attach 300" ∧ d.role = .purchaseOrder ∧
        d.supersedesId = some (Uuid.ofNat 101) ∧ ∃ u ∈ w.store.uploads, u.id = d.documentId ∧ u.sha256 = "300") = true := by
    decide +kernel
  obtain ⟨w, hw, hexec⟩ := (Option.any_eq_true _ _).1 hexec
  obtain ⟨hlength, d, hd, hkey, hrole, hsupersedes, hcontent⟩ := of_decide_eq_true hexec
  obtain ⟨hwell, hagain⟩ := attachments_wellFormed tapCaseEnv sha256_byteChars_injective (.of_exec hw)
  refine ⟨w, d, .of_exec hw, hlength, hwell, hd, hsupersedes, ?_, ?_⟩
  · refine (hagain d hd _ ?_ _ _).1 ⟨hrole.symm, hsupersedes.symm, hcontent⟩
    exact hkey.symm
  · refine (hagain d hd _ ?_ _ _).2 fun hasks => ?_
    · exact hkey.symm
    · have hrole' : DocumentRole.goodsReceipt = d.role := hasks.1
      rw [hrole] at hrole'
      cases hrole'

end InvoiceOps
