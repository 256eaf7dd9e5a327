import InvoiceOps.Cases.Readiness

/-! A match of a case that has been matched with the same context before returns the stored run. The context names
the confirmations and not what has been received, reversed or allocated since, so that the stored run is the one
the matching service would return only as long as none of these is added. -/

namespace InvoiceOps

open Json StateMachine

theorem MatchingMode.value_inj {m m' : MatchingMode} (h : m.value = m'.value) : m = m' := by
  cases m with
  | twoWay =>
    cases m' with
    | twoWay => rfl
    | threeWay => simp [MatchingMode.value] at h
  | threeWay =>
    cases m' with
    | twoWay => simp [MatchingMode.value] at h
    | threeWay => rfl

theorem uuids_of_same {us vs : List Uuid} (h : Same (.arr (us.map fun u => .str u.str)) (.arr (vs.map fun u => .str u.str))) :
    us = vs := by
  have hmap := map_eq_of_same_arr (g := fun u : Uuid => u) (fun u v huv => Uuid.str_inj (same_str huv)) h
  simpa using hmap

theorem context_of_same {c c' : CaseContext} (h : Same c.json c'.json) : c = c' := by
  have hvalues := Same.values h (by simp only [List.map_cons, List.map_nil]) (by simp)
  simp only [List.map_cons, List.map_nil, List.forall₂_cons, List.Forall₂.nil, and_true] at hvalues
  obtain ⟨hmode, hversion, hinvoice, hdocument, hrun, horder, hconfirmation, hpo, hreceipts, hids⟩ := hvalues
  obtain ⟨mode, version, invoice, document, run, order, confirmation, po, receipts, ids⟩ := c
  obtain ⟨mode', version', invoice', document', run', order', confirmation', po', receipts', ids'⟩ := c'
  obtain rfl := MatchingMode.value_inj (same_str hmode)
  obtain rfl := same_str hversion
  obtain rfl := Uuid.str_inj (same_str hinvoice)
  obtain rfl := Uuid.str_inj (same_str hdocument)
  obtain rfl := Uuid.str_inj (same_str hrun)
  obtain rfl := Uuid.str_inj (same_str horder)
  obtain rfl := Uuid.str_inj (same_str hconfirmation)
  obtain rfl := Uuid.str_inj (same_str hpo)
  obtain rfl := uuids_of_same hreceipts
  obtain rfl := uuids_of_same hids
  rfl

theorem context_of_fingerprint {E : CaseEnv} (hsha : Function.Injective E.matching.dumps.sha256) {c c' : CaseContext}
    (h : E.fingerprint c.json = E.fingerprint c'.json) : c = c' :=
  context_of_same (same_of_fingerprint hsha h)

/-- The contexts of a case carry their fingerprints, no two the same. -/
structure ContextsOk (E : CaseEnv) (s : CaseStore) : Prop where
  fingerprints : ∀ x ∈ s.contexts, x.requestFingerprint = E.fingerprint x.contextJson.json
  distinct : (s.contexts.map (·.requestFingerprint)).Nodup

/-- The case is matched, and `x` is stored with the run the matching service returns. -/
structure Stores (E : CaseEnv) (w : CaseWorld) (x : CaseMatchContext) (w' : CaseWorld) : Prop where
  contexts : w'.store.contexts = w.store.contexts ++ [x]
  current : w.store.currentContext E w.world.db = .ok x.contextJson
  fresh : ∀ y ∈ w.store.contexts, y.requestFingerprint ≠ x.requestFingerprint
  fingerprint : x.requestFingerprint = E.fingerprint x.contextJson.json
  call : ∃ fresh r, E.callMatch w.world.db fresh x.contextJson = .ok r ∧
    w.world.nextService E.matching (x.contextJson.call fresh) = some w'.world ∧ x.matchRunId = r.run.id

section

variable {E : CaseEnv} {w w' v : CaseWorld} {a : CaseAct} {s : CaseStore} {db : Tables}

/-- A step stores at most one context, and then it has matched the case. -/
theorem contexts_of_moves (hstep : CaseMoves E w a w') :
    w'.store.contexts = w.store.contexts ∨ ∃ x, Stores E w x w' := by
  cases hstep with
  | service => exact .inl rfl
  | rows _ _ hcontexts => exact .inl hcontexts
  | attach hattached => exact .inl hattached.rest.2
  | order _ _ _ _ _ hconfirmed _ =>
    rw [hconfirmed.store]
    exact .inl rfl
  | receipt _ _ _ _ _ _ _ _ _ _ hconfirmed _ =>
    rw [hconfirmed.store]
    exact .inl rfl
  | @matched c fresh context r s world _ hplan hcall hworld hfinish =>
    obtain ⟨hnew, status, -, rfl⟩ := finishMatch_ok hfinish
    exact .inr ⟨⟨r.run.id, context, c.idempotencyKey, E.fingerprint context.json⟩, rfl, (plan_call hplan).1,
      hnew, rfl, fresh, r, hcall, hworld, rfl⟩

theorem ContextsOk.step (h : ContextsOk E w.store) (hstep : CaseMoves E w a w') : ContextsOk E w'.store := by
  rcases contexts_of_moves hstep with hsame | ⟨x, hx⟩
  · obtain ⟨h1, h2⟩ := h
    refine ⟨?_, ?_⟩
    all_goals rw [hsame]
    all_goals assumption
  · refine ⟨fun y hy => ?_, ?_⟩
    · rw [hx.contexts] at hy
      rcases List.mem_append.1 hy with hold | hnew
      · exact h.fingerprints y hold
      · rw [List.mem_singleton.1 hnew]
        exact hx.fingerprint
    · rw [hx.contexts]
      refine Lists.nodup_map_snoc h.distinct fun hmem => ?_
      obtain ⟨y, hy, heq⟩ := List.mem_map.1 hmem
      exact hx.fresh y hy heq

theorem contextsOk_created : ContextsOk E .created := ⟨fun _ hx => (List.not_mem_nil hx).elim, .nil⟩

theorem contextsOk_of_steps {acts : List CaseAct} (h : Steps (CaseWorld.next E) .initial acts w) : ContextsOk E w.store :=
  h.invariant (I := fun w => ContextsOk E w.store) (fun _ _ _ hs hn => hs.step (caseMoves_of_next hn)) contextsOk_created

theorem contexts_of_steps {acts : List CaseAct} (h : Steps (CaseWorld.next E) w acts w') :
    w.store.contexts <+: w'.store.contexts := by
  refine h.relates (I := fun _ => True) (R := fun s t => s.store.contexts <+: t.store.contexts) (fun _ _ _ _ _ => trivial)
    (fun _ => List.prefix_refl _) (fun _ _ _ => List.IsPrefix.trans) (fun s a t _ hn => ?_) trivial
  rcases contexts_of_moves (caseMoves_of_next hn) with hsame | ⟨x, hx⟩
  · rw [hsame]
  · rw [hx.contexts]
    exact List.prefix_append _ _

end

/-- On the way to `w`, the step to `v` has matched the case with this context. -/
def MatchedAt (E : CaseEnv) (acts : List CaseAct) (context : CaseContext) (v w : CaseWorld) : Prop :=
  ∃ pre a post u, acts = pre ++ a :: post ∧ Steps (CaseWorld.next E) .initial pre u ∧ u.next E a = some v ∧
    Steps (CaseWorld.next E) v post w ∧ context ∉ u.store.contexts.map (·.contextJson) ∧
    context ∈ v.store.contexts.map (·.contextJson)

section

variable {E : CaseEnv} {w v : CaseWorld} {acts : List CaseAct} {context : CaseContext}

theorem MatchedAt.snoc {a : CaseAct} {w' : CaseWorld} (h : MatchedAt E acts context v w) (hn : w.next E a = some w') :
    MatchedAt E (acts ++ [a]) context v w' := by
  obtain ⟨pre, b, post, u, rfl, hpre, hb, hpost, hbefore, hafter⟩ := h
  exact ⟨pre, b, post ++ [a], u, by simp, hpre, hb, hpost.snoc hn, hbefore, hafter⟩

theorem exists_matchedAt (h : Steps (CaseWorld.next E) .initial acts w) {x : CaseMatchContext}
    (hx : x ∈ w.store.contexts) : ∃ v, MatchedAt E acts x.contextJson v w := by
  induction h with
  | nil => cases hx
  | @snoc acts t a t' hrun hn ih =>
    rcases contexts_of_moves (caseMoves_of_next hn) with hsame | ⟨y, hy⟩
    · obtain ⟨v, hv⟩ := ih (hsame ▸ hx)
      exact ⟨v, hv.snoc hn⟩
    · rw [hy.contexts] at hx
      rcases List.mem_append.1 hx with hold | hnew
      · obtain ⟨v, hv⟩ := ih hold
        exact ⟨v, hv.snoc hn⟩
      · obtain rfl := List.mem_singleton.1 hnew
        refine ⟨t', acts, a, [], t, rfl, hrun, hn, .nil, fun hmem => ?_, ?_⟩
        · obtain ⟨z, hz, hcontext⟩ := List.mem_map.1 hmem
          refine hy.fresh z hz ?_
          rw [(contextsOk_of_steps hrun).fingerprints z hz, hy.fingerprint, hcontext]
        · rw [hy.contexts]
          exact List.mem_map_of_mem (List.mem_append_right _ (List.mem_singleton_self x))

/-- A run that answers the call of a context, with the purchase order it is about. -/
structure AnswersContext (E : CaseEnv) (db : Tables) (context : CaseContext) (po : PurchaseOrder) (run : MatchRun) :
    Prop where
  order : po ∈ db.purchaseOrders ∧ po.id = context.purchaseOrderId
  mem : run ∈ db.runs
  answers : ∀ x : ExtractionRun, x.id = context.invoiceExtractionRunId →
    Answers E.matching db ⟨context.invoiceDocumentId, po, context.matchingMode⟩ x run

theorem Answers.of_id {E : MatchingEnv} {db : Tables} {c : MatchCall} {x x' : ExtractionRun} {run : MatchRun}
    (h : Answers E db c x run) (hid : x'.id = x.id) : Answers E db c x' run := by
  have hkey : E.key c x' none = E.key c x none := by
    unfold MatchingEnv.key
    rw [hid]
  exact ⟨h.mem, hkey ▸ h.base, fun hmode => hkey ▸ h.twoWay hmode, h.threeWay⟩

/-- After a match the run that is stored answers its context. -/
theorem Stores.answers (hsha : Function.Injective E.matching.dumps.sha256) {u : CaseWorld} {x : CaseMatchContext}
    (hu : Steps (CaseWorld.next E) .initial acts u) (h : Stores E u x v) :
    ∃ po run, AnswersContext E v.world.db x.contextJson po run ∧ run.id = x.matchRunId := by
  obtain ⟨fresh, r, hcall, hworld, hid⟩ := h.call
  obtain ⟨acts', hservice⟩ := service_of_steps hu
  obtain ⟨-, hinv, -⟩ := replayInv_of_service hservice
  obtain ⟨po, y, hpo, hy, hcalled⟩ := called_of_callMatch hcall
  obtain ⟨hmem, hpoid⟩ := Tables.mem_purchaseOrders hpo
  have hanswers := hcalled.answers hsha hinv.tables hinv.allocation.tables.orderIds hmem
  rw [← db_of_call hcall hworld] at hanswers
  refine ⟨po, r.run, ⟨⟨(grows_of_service hservice (.single hworld)).orders hmem, hpoid⟩, hanswers.mem, fun z hz => ?_⟩,
    hid.symm⟩
  refine hanswers.of_id (hz.trans ?_)
  -- the context names the extraction the call has used
  obtain ⟨invoice, order, y', p, -, -, hy', -, hcontext⟩ := currentContext_ok h.current
  rw [hcontext] at hy ⊢
  rw [Option.some.inj (hy'.symm.trans hy)]
  rfl

theorem MatchedAt.stored (hsha : Function.Injective E.matching.dumps.sha256) (h : MatchedAt E acts context v w) :
    ∃ pre po run, Steps (CaseWorld.next E) .initial pre v ∧ (∃ post, Steps (CaseWorld.next E) v post w) ∧
      AnswersContext E v.world.db context po run ∧
      ∃ x ∈ w.store.contexts, x.contextJson = context ∧ x.matchRunId = run.id := by
  obtain ⟨pre, a, post, u, -, hpre, hn, hpost, hbefore, hafter⟩ := h
  rcases contexts_of_moves (caseMoves_of_next hn) with hsame | ⟨x, hx⟩
  · rw [hsame] at hafter
    exact absurd hafter hbefore
  · obtain rfl : x.contextJson = context := by
      rw [hx.contexts, List.map_append] at hafter
      rcases List.mem_append.1 hafter with hold | hnew
      · exact absurd hold hbefore
      · exact (List.mem_singleton.1 hnew).symm
    obtain ⟨po, run, hanswers, hid⟩ := hx.answers hsha hpre
    refine ⟨pre ++ [a], po, run, hpre.snoc hn, ⟨post, hpost⟩, hanswers, x, ?_, rfl, hid.symm⟩
    refine (contexts_of_steps hpost).subset ?_
    rw [hx.contexts]
    exact List.mem_append_right _ (List.mem_singleton_self x)

end

section

variable {E : CaseEnv} {w v : CaseWorld} {acts : List CaseAct} {context : CaseContext} {run : MatchRun}

theorem mem_contexts_of_fingerprint (hok : ContextsOk E w.store) (hsha : Function.Injective E.matching.dumps.sha256)
    {x : CaseMatchContext}
    (h : w.store.contexts.find? (·.requestFingerprint = E.fingerprint context.json) = some x) :
    x ∈ w.store.contexts ∧ x.contextJson = context := by
  have hx := List.mem_of_find?_eq_some h
  have hfp : x.requestFingerprint = E.fingerprint context.json := by simpa using List.find?_some h
  exact ⟨hx, context_of_fingerprint hsha ((hok.fingerprints x hx).symm.trans hfp)⟩

/-- The run stored with a context answers it since the match that stored it. -/
theorem answers_of_stored (hsha : Function.Injective E.matching.dumps.sha256) (h : Steps (CaseWorld.next E) .initial acts w)
    {x : CaseMatchContext} (hx : x ∈ w.store.contexts) (hcontext : x.contextJson = context)
    (hrun : w.world.db.storedRun x = .ok run) (hv : MatchedAt E acts context v w) :
    ∃ po, AnswersContext E v.world.db context po run ∧ ReplayInv E.matching v.world ∧ Grows v.world.db w.world.db := by
  have hok := contextsOk_of_steps h
  obtain ⟨acts', hservice⟩ := service_of_steps h
  obtain ⟨-, hinv, -⟩ := replayInv_of_service hservice
  obtain ⟨pre, po, run', hpre, ⟨post, hpost⟩, hanswers, y, hy, hycontext, hyid⟩ := hv.stored hsha
  obtain ⟨before, hbefore⟩ := service_of_steps hpre
  obtain ⟨after, hafter⟩ := service_of_steps hpost
  have hgrows := grows_of_service hbefore hafter
  obtain rfl : y = x := by
    refine List.inj_on_of_nodup_map hok.distinct hy hx ?_
    rw [hok.fingerprints y hy, hok.fingerprints x hx, hycontext, hcontext]
  obtain ⟨hmem, hid⟩ := storedRun_ok hrun
  obtain rfl : run' = run :=
    List.inj_on_of_nodup_map hinv.tables.runIds (hgrows.runs.subset hanswers.mem) hmem (hyid.symm.trans hid.symm)
  exact ⟨po, hanswers, (replayInv_of_service hbefore).2.1, hgrows⟩

theorem currentContext_extraction (h : w.store.currentContext E w.world.db = .ok context) :
    ∃ y, w.world.db.currentExtraction context.invoiceDocumentId = some y ∧ y.id = context.invoiceExtractionRunId := by
  obtain ⟨invoice, order, y, p, -, -, hy, -, rfl⟩ := currentContext_ok h
  exact ⟨y, hy, rfl⟩

/-- Once something is added, the matching service returns another run than the stored one. -/
theorem other_run_of_added (hsha : Function.Injective E.matching.dumps.sha256)
    (h : Steps (CaseWorld.next E) .initial acts w) {x : CaseMatchContext} (hx : x ∈ w.store.contexts)
    (hcontext : w.store.currentContext E w.world.db = .ok x.contextJson) (hrun : w.world.db.storedRun x = .ok run)
    (hmode : x.contextJson.matchingMode = .threeWay) (hv : MatchedAt E acts x.contextJson v w)
    (hadded : Added v.world.db w.world.db x.contextJson.purchaseOrderId x.contextJson.invoiceDocumentId) {fresh : FreshIds}
    {r : MatchServiceResult} (hcall : E.callMatch w.world.db fresh x.contextJson = .ok r) : r.run ≠ run := by
  intro hr
  obtain ⟨acts', hservice⟩ := service_of_steps h
  obtain ⟨-, hinv, -⟩ := replayInv_of_service hservice
  obtain ⟨y, -, hyid⟩ := currentContext_extraction hcontext
  obtain ⟨po, hanswers, hinvv, hgrows⟩ := answers_of_stored hsha h hx rfl hrun hv
  obtain ⟨hpo, hpoid⟩ := hanswers.order
  have hanswer := hanswers.answers y hyid
  rw [CaseEnv.callMatch, hmode, ← hpoid] at hcall
  rw [hmode] at hanswer
  exact hanswer.other_run hsha hpo hinvv hinv hgrows (hpoid ▸ hadded) hcall (congrArg MatchRun.id hr)

theorem call_of_not_added (hsha : Function.Injective E.matching.dumps.sha256)
    (h : Steps (CaseWorld.next E) .initial acts w) {x : CaseMatchContext} (hx : x ∈ w.store.contexts)
    (hcontext : w.store.currentContext E w.world.db = .ok x.contextJson) (hrun : w.world.db.storedRun x = .ok run)
    (hv : MatchedAt E acts x.contextJson v w)
    (hadded : x.contextJson.matchingMode = .threeWay →
      ¬ Added v.world.db w.world.db x.contextJson.purchaseOrderId x.contextJson.invoiceDocumentId) (fresh : FreshIds) :
    ∃ r, E.callMatch w.world.db fresh x.contextJson = .ok r ∧ r.run = run := by
  obtain ⟨acts', hservice⟩ := service_of_steps h
  obtain ⟨-, hinv, hrouting⟩ := replayInv_of_service hservice
  obtain ⟨y, hy, hyid⟩ := currentContext_extraction hcontext
  obtain ⟨po, hanswers, hinvv, hgrows⟩ := answers_of_stored hsha h hx rfl hrun hv
  obtain ⟨hpo, hpoid⟩ := hanswers.order
  have hrepeats := (hanswers.answers y hyid).repeats hpo hinvv hinv hrouting hgrows hy fun hmode => hpoid ▸ hadded hmode
  obtain ⟨db', hcall, -⟩ := hrepeats.call fresh
  rw [hpoid] at hcall
  exact ⟨_, hcall, rfl⟩

/-- A match with a context that is stored already returns the run stored with it. -/
theorem matchCase_stored (hok : ContextsOk E w.store) {c : CaseMatchCommand} {fresh : FreshIds}
    (hversion : c.expectedCaseVersion = w.store.case.version)
    (hkey : ∀ x ∈ w.store.contexts, x.idempotencyKey ≠ c.idempotencyKey) {x : CaseMatchContext}
    (hx : x ∈ w.store.contexts) (hcontext : w.store.currentContext E w.world.db = .ok x.contextJson) :
    w.matchCase E c fresh = w.world.db.storedRun x := by
  have hfound : w.store.contexts.find? (·.requestFingerprint = E.fingerprint x.contextJson.json) = some x := by
    rw [← hok.fingerprints x hx]
    exact Lists.find?_key hok.distinct hx
  rcases planMatch_cases hcontext hversion hkey with ⟨y, hy, hplan⟩ | ⟨hnone, -⟩
  · obtain rfl := Option.some.inj (hfound.symm.trans hy)
    rw [CaseWorld.matchCase, hplan]
    rcases storedRun_cases w.world.db x with ⟨run, hrun⟩ | hcorrupt
    · rw [hrun]
      rfl
    · rw [hcorrupt]
      rfl
  · rw [hfound] at hnone
    cases hnone

theorem call_of_matchCase {c : CaseMatchCommand} {fresh : FreshIds}
    (hplan : w.store.planMatch E w.world.db c = .ok (.call context)) (hmatch : w.matchCase E c fresh = .ok run) :
    ∃ r, E.callMatch w.world.db fresh context = .ok r ∧ r.run = run := by
  simp only [CaseWorld.matchCase, hplan] at hmatch
  cases hcall : E.callMatch w.world.db fresh context with
  | error e =>
    rw [hcall] at hmatch
    cases hmatch
  | ok r =>
    simp only [hcall] at hmatch
    rcases finishMatch_cases (s := w.store) r.tables c w.store.case context r.run with ⟨s', hs'⟩ | hintegrity
    · rw [hs'] at hmatch
      exact ⟨r, rfl, Except.ok.inj hmatch⟩
    · rw [hintegrity] at hmatch
      cases hmatch

end

/-- In every state the commands on a case lead to: a match of the case that succeeds with the current version and
a new key returns the run that the matching service returns for the same invoice, purchase order and mode on the
same tables, if and only if a three-way match with this context has not been stored already, or nothing has been
received, reversed or allocated to others on the purchase order since. -/
theorem matchCase_current_iff (E : CaseEnv) (hsha : Function.Injective E.matching.dumps.sha256) {acts : List CaseAct}
    {w : CaseWorld} (h : Steps (CaseWorld.next E) .initial acts w) {c : CaseMatchCommand} {fresh : FreshIds}
    {context : CaseContext} {run : MatchRun} (hversion : c.expectedCaseVersion = w.store.case.version)
    (hkey : ∀ x ∈ w.store.contexts, x.idempotencyKey ≠ c.idempotencyKey)
    (hcontext : w.store.currentContext E w.world.db = .ok context) (hmatch : w.matchCase E c fresh = .ok run) :
    (∃ r, E.callMatch w.world.db fresh context = .ok r ∧ r.run = run) ↔
      (context.matchingMode = .threeWay → ∀ v, MatchedAt E acts context v w →
        ¬ Added v.world.db w.world.db context.purchaseOrderId context.invoiceDocumentId) := by
  have hok := contextsOk_of_steps h
  rcases planMatch_cases hcontext hversion hkey with ⟨x, hfound, -⟩ | ⟨hnone, hplan⟩
  · obtain ⟨hx, rfl⟩ := mem_contexts_of_fingerprint hok hsha hfound
    have hrun : w.world.db.storedRun x = .ok run := by
      rw [← matchCase_stored hok hversion hkey hx hcontext]
      exact hmatch
    constructor
    · rintro ⟨r, hcall, hr⟩ hmode v hv hadded
      exact other_run_of_added hsha h hx hcontext hrun hmode hv hadded hcall hr
    · intro hadded
      obtain ⟨v, hv⟩ := exists_matchedAt h hx
      exact call_of_not_added hsha h hx hcontext hrun hv (fun hmode => hadded hmode v hv) fresh
  · constructor
    · rintro - - v ⟨pre, a, post, u, -, -, -, hpost, -, hafter⟩
      -- a context that is stored would have been found
      obtain ⟨x, hx, hxcontext⟩ := List.mem_map.1 hafter
      have hx' := (contexts_of_steps hpost).subset hx
      refine absurd (List.find?_eq_none.1 hnone x hx') ?_
      simp [hok.fingerprints x hx', hxcontext]
    · intro _
      exact call_of_matchCase hplan hmatch

/-- A two-way match is asked for again. -/
def matchedActs : List CaseAct := invoiceActs 1 ++ orderActs 100 3 none ++ [.matchCase ⟨6, "match"⟩ (tapFresh 20)]

theorem matchCase_current_iff_again : ∃ w context run r, Steps (CaseWorld.next tapCaseEnv) .initial matchedActs w ∧
    w.store.currentContext tapCaseEnv w.world.db = .ok context ∧ context ∈ w.store.contexts.map (·.contextJson) ∧
    w.matchCase tapCaseEnv ⟨7, "again"⟩ (tapFresh 60) = .ok run ∧
    tapCaseEnv.callMatch w.world.db (tapFresh 60) context = .ok r ∧ r.run = run := by
  have hexec : (exec (CaseWorld.next tapCaseEnv) .initial matchedActs).any (fun w =>
      decide (w.store.case.version = 7) && w.store.contexts.all (·.idempotencyKey ≠ "again") &&
      (w.store.currentContext tapCaseEnv w.world.db).toOption.any fun context =>
        decide (context.matchingMode = .twoWay) && w.store.contexts.any fun x =>
          decide (x.contextJson = context) && (w.world.db.storedRun x).toOption.isSome) = true := by
    decide +kernel
  obtain ⟨w, hw, hexec⟩ := (Option.any_eq_true _ _).1 hexec
  obtain ⟨hexec, hcontext⟩ := Bool.and_eq_true_iff.1 hexec
  obtain ⟨hversion, hkeys⟩ := Bool.and_eq_true_iff.1 hexec
  obtain ⟨context, hcontext, hexec⟩ := (Option.any_eq_true _ _).1 hcontext
  obtain ⟨hmode, hexec⟩ := Bool.and_eq_true_iff.1 hexec
  obtain ⟨x, hx, hexec⟩ := List.any_eq_true.1 hexec
  obtain ⟨hxcontext, hstored⟩ := Bool.and_eq_true_iff.1 hexec
  obtain ⟨run, hrun⟩ := Option.isSome_iff_exists.1 hstored
  obtain rfl := of_decide_eq_true hxcontext
  have hcontext := eq_ok_of_toOption hcontext
  have hkeys : ∀ x ∈ w.store.contexts, x.idempotencyKey ≠ "again" :=
    fun x hx => of_decide_eq_true (List.all_eq_true.1 hkeys x hx)
  have hversion := (of_decide_eq_true hversion).symm
  have hsteps : Steps (CaseWorld.next tapCaseEnv) .initial matchedActs w := .of_exec hw
  have hmatch : w.matchCase tapCaseEnv ⟨7, "again"⟩ (tapFresh 60) = .ok run :=
    (matchCase_stored (contextsOk_of_steps hsteps) hversion hkeys hx hcontext).trans (eq_ok_of_toOption hrun)
  have hiff := matchCase_current_iff tapCaseEnv sha256_byteChars_injective hsteps hversion hkeys hcontext hmatch
  obtain ⟨r, hcall, hr⟩ := hiff.2 fun hthree => by
    rw [of_decide_eq_true hmode] at hthree
    cases hthree
  exact ⟨w, x.contextJson, run, r, hsteps, hcontext, List.mem_map_of_mem hx, hmatch, hcall, hr⟩

/-- The receipt is reversed. -/
def reversalActs : List CaseAct :=
  [.service (.act (.beginReversal 0 (Uuid.ofNat 204) ⟨Uuid.ofNat 50⟩)), .service (.act (.commit 0))]

/-- After a three-way match the receipt is reversed, and the run is still returned as matched. -/
theorem reversed_not_current : ∃ w context run,
    Steps (CaseWorld.next tapCaseEnv) .initial (tapCaseActs ++ .matchCase ⟨9, "match"⟩ (tapFresh 20) :: reversalActs) w ∧
    w.store.currentContext tapCaseEnv w.world.db = .ok context ∧ w.store.case.version = 10 ∧
    (∀ x ∈ w.store.contexts, x.idempotencyKey ≠ "again") ∧ w.world.db.receipts.all (·.reversal.isSome) = true ∧
    w.matchCase tapCaseEnv ⟨10, "again"⟩ (tapFresh 60) = .ok run ∧ run.decision = .matched ∧
    ¬ ∃ r, tapCaseEnv.callMatch w.world.db (tapFresh 60) context = .ok r ∧ r.run = run := by
  have hexec : (exec (CaseWorld.next tapCaseEnv) .initial tapCaseActs).any (fun u => u.store.contexts.isEmpty &&
      (u.next tapCaseEnv (.matchCase ⟨9, "match"⟩ (tapFresh 20))).any fun v =>
        (exec (CaseWorld.next tapCaseEnv) v reversalActs).any fun w =>
          decide (w.store.case.version = 10) && w.store.contexts.all (·.idempotencyKey ≠ "again") &&
          w.world.db.receipts.all (·.reversal.isSome) &&
          (w.store.currentContext tapCaseEnv w.world.db).toOption.any fun context =>
            decide (context.matchingMode = .threeWay ∧ context ∈ v.store.contexts.map (·.contextJson)) &&
            (v.world.db.receiptsOf context.purchaseOrderId).any (fun r => decide (r.reversal = none) &&
              (w.world.db.receiptsOf context.purchaseOrderId).any fun r' =>
                decide (r'.id = r.id ∧ r'.reversal ≠ none)) &&
            w.store.contexts.any fun x => decide (x.contextJson = context) &&
              (w.world.db.storedRun x).toOption.any fun run => decide (run.decision = .matched)) = true := by
    decide +kernel
  obtain ⟨u, hu, hexec⟩ := (Option.any_eq_true _ _).1 hexec
  obtain ⟨hempty, hexec⟩ := Bool.and_eq_true_iff.1 hexec
  obtain ⟨v, hv, hexec⟩ := (Option.any_eq_true _ _).1 hexec
  obtain ⟨w, hw, hexec⟩ := (Option.any_eq_true _ _).1 hexec
  obtain ⟨hexec, hcontext⟩ := Bool.and_eq_true_iff.1 hexec
  obtain ⟨hexec, hreversed⟩ := Bool.and_eq_true_iff.1 hexec
  obtain ⟨hversion, hkeys⟩ := Bool.and_eq_true_iff.1 hexec
  obtain ⟨context, hcontext, hexec⟩ := (Option.any_eq_true _ _).1 hcontext
  obtain ⟨hexec, hstored⟩ := Bool.and_eq_true_iff.1 hexec
  obtain ⟨hmode, hadded⟩ := Bool.and_eq_true_iff.1 hexec
  obtain ⟨hmode, hv'⟩ := of_decide_eq_true hmode
  obtain ⟨x, hx, hstored⟩ := List.any_eq_true.1 hstored
  obtain ⟨hxcontext, hstored⟩ := Bool.and_eq_true_iff.1 hstored
  obtain ⟨run, hrun, hmatched⟩ := (Option.any_eq_true _ _).1 hstored
  obtain ⟨receipt, hreceipt, hadded⟩ := List.any_eq_true.1 hadded
  obtain ⟨hnone, hadded⟩ := Bool.and_eq_true_iff.1 hadded
  obtain ⟨receipt', hreceipt', hadded⟩ := List.any_eq_true.1 hadded
  obtain ⟨hid, hsome⟩ := of_decide_eq_true hadded
  obtain rfl := of_decide_eq_true hxcontext
  have hcontext := eq_ok_of_toOption hcontext
  have hrun := eq_ok_of_toOption hrun
  have hkeys : ∀ x ∈ w.store.contexts, x.idempotencyKey ≠ "again" :=
    fun x hx => of_decide_eq_true (List.all_eq_true.1 hkeys x hx)
  have hversion := of_decide_eq_true hversion
  have hsteps : Steps (CaseWorld.next tapCaseEnv) .initial
      (tapCaseActs ++ .matchCase ⟨9, "match"⟩ (tapFresh 20) :: reversalActs) w := by
    rw [← List.singleton_append]
    exact (Steps.of_exec hu).trans ((Steps.single hv).trans (.of_exec hw))
  have hat : MatchedAt tapCaseEnv (tapCaseActs ++ .matchCase ⟨9, "match"⟩ (tapFresh 20) :: reversalActs) x.contextJson v w :=
    ⟨tapCaseActs, _, reversalActs, u, rfl, .of_exec hu, hv, .of_exec hw, by simp [List.isEmpty_iff.1 hempty], hv'⟩
  refine ⟨w, x.contextJson, run, hsteps, hcontext, hversion, hkeys, hreversed, ?_, of_decide_eq_true hmatched, ?_⟩
  · exact (matchCase_stored (contextsOk_of_steps hsteps) hversion.symm hkeys hx hcontext).trans hrun
  · rintro ⟨r, hcall, hr⟩
    refine other_run_of_added sha256_byteChars_injective hsteps hx hcontext hrun hmode hat (.inr (.inl ?_)) hcall hr
    exact ⟨receipt, hreceipt, receipt', hreceipt', hid, of_decide_eq_true hnone, hsome⟩

end InvoiceOps
