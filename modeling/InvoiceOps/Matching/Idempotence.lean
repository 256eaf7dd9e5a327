import InvoiceOps.Matching.Replay

/-! `MatchingService.match` called again. What a call returns answers the next one, until a receipt, a reversal
or an allocation of another document is added to the purchase order; the next run is then another one. -/

namespace InvoiceOps

open Calendar StateMachine

/-- What a call has done: it has found its run, or it has committed a new one. -/
inductive Called (E : MatchingEnv) (db : Tables) (fresh : FreshIds) (c : MatchCall) (x : ExtractionRun) :
    MatchServiceResult → Prop
  | found {run : MatchRun} {r : MatchServiceResult} : E.findRun db c x = some run → E.replay db fresh run = .ok r →
      Called E db fresh c x r
  | created {found : MatchResult × List AllocationDraft} {allocations : List ThreeWayAllocation}
      {risk : List RiskFeatureRecord × List RiskAssessment × RiskAssessment} {run : MatchRun} :
      run = E.newRun c x (E.contextFor db c) fresh.runId found.1 →
      newAllocations run fresh.allocationIds found.2 = some allocations →
      db.Accepts (E.runRows db fresh run (E.contextFor db c) allocations risk) →
      Called E db fresh c x ⟨run, true, db.insert (E.runRows db fresh run (E.contextFor db c) allocations risk)⟩

section

variable {E : MatchingEnv} {db db' : Tables} {fresh : FreshIds} {c : MatchCall} {x : ExtractionRun} {run : MatchRun}
  {r : MatchServiceResult} {d p : Uuid} {mode : MatchingMode}

theorem called_of_callMatch (h : E.callMatch db fresh d p mode = .ok r) : ∃ po x, db.purchaseOrder p = some po ∧
    db.currentExtraction d = some x ∧ Called E db fresh ⟨d, po, mode⟩ x r := by
  unfold MatchingEnv.callMatch at h
  split at h
  · cases h
  · next po hpo =>
    split at h
    · cases h
    · next x hx =>
      refine ⟨po, x, hpo, hx, ?_⟩
      split at h
      · next run hrun => exact .found hrun h
      · next hnone =>
        obtain ⟨found, -, ⟨allocations, risk, hrows, -, haccepts, rfl⟩ | ⟨-, run, hrun, -⟩⟩ := createRun_cases h
        · exact .created rfl hrows haccepts
        · -- a run with the key would have been found in the first place
          rw [MatchingEnv.findRun, Option.or_eq_none_iff, hrun] at hnone
          cases hnone.2

/-- A replay changes nothing that a call looks at. -/
structure SameForCalls (db db' : Tables) : Prop where
  purchaseOrders : db'.purchaseOrders = db.purchaseOrders
  extractions : db'.extractions = db.extractions
  receipts : db'.receipts = db.receipts
  runs : db'.runs = db.runs
  contexts : db'.contexts = db.contexts
  allocations : db'.allocations = db.allocations

theorem SameForCalls.of_replay (h : E.replay db fresh run = .ok r) : SameForCalls db r.tables := by
  obtain ⟨-, -, x, po, risk, -, -, -, ⟨-, htables⟩ | ⟨-, htables⟩⟩ := replay_cases h
  · rw [htables]
    exact ⟨rfl, rfl, rfl, List.append_nil _, List.append_nil _, List.append_nil _⟩
  · rw [htables]
    exact ⟨rfl, rfl, rfl, rfl, rfl, rfl⟩

theorem SameForCalls.trans {db'' : Tables} (h : SameForCalls db db') (h' : SameForCalls db' db'') :
    SameForCalls db db'' :=
  ⟨h'.purchaseOrders.trans h.purchaseOrders, h'.extractions.trans h.extractions, h'.receipts.trans h.receipts,
    h'.runs.trans h.runs, h'.contexts.trans h.contexts, h'.allocations.trans h.allocations⟩

theorem Answers.congr (h : Answers E db c x run) (hs : SameForCalls db db') : Answers E db' c x run := by
  refine ⟨hs.runs ▸ h.mem, h.base, h.twoWay, fun hmode => ?_⟩
  have hcontext : db'.contextOf E c = db.contextOf E c := by
    rw [Tables.contextOf, Tables.contextOf, Tables.receiptsOf, Tables.allocationsOf, hs.receipts, hs.allocations]
    rfl
  rw [hs.contexts, hcontext]
  exact h.threeWay hmode

theorem mem_runs_of_findRun (h : E.findRun db c x = some run) : run ∈ db.runs := by
  rcases Option.or_eq_some_iff.1 h with hprior | ⟨-, hexisting⟩
  · obtain ⟨b, -, hb⟩ := Option.bind_eq_some_iff.1 hprior
    exact mem_runs_of_findPrior hb
  · exact List.mem_of_find?_eq_some hexisting

theorem Called.mem (h : Called E db fresh c x r) : r.run ∈ r.tables.runs := by
  cases h with
  | found hfound hreplay =>
    rw [(replay_cases hreplay).1, (SameForCalls.of_replay hreplay).runs]
    exact mem_runs_of_findRun hfound
  | created => exact List.mem_append_right _ (List.mem_singleton_self _)

theorem Called.extractions (h : Called E db fresh c x r) : r.tables.extractions = db.extractions := by
  cases h with
  | found _ hreplay => exact (SameForCalls.of_replay hreplay).extractions
  | created => rfl

theorem Called.answers (hsha : Function.Injective E.dumps.sha256) (hok : ReplaysOk E db)
    (hids : (db.purchaseOrders.map (·.id)).Nodup) (hpo : c.purchaseOrder ∈ db.purchaseOrders)
    (h : Called E db fresh c x r) : Answers E r.tables c x r.run := by
  cases h with
  | @found run r hfound hreplay =>
    rw [(replay_cases hreplay).1]
    exact (answers_of_findRun hsha hok hids hpo hfound).congr (.of_replay hreplay)
  | @created found allocations risk run hrun hrows haccepts =>
    have hkey : run.key = E.key c x (E.contextFor db c) := hrun ▸ rfl
    refine ⟨List.mem_append_right _ (List.mem_singleton_self run), base_of_key hkey, fun hmode => ?_, fun hmode => ?_⟩
    · rw [hkey, contextFor_twoWay hmode]
    · refine ⟨contextRow run (db.contextOf E c), List.mem_append_right _ ?_, rfl, ?_⟩
      · simp [MatchingEnv.runRows, contextFor_threeWay hmode]
      · -- the allocations of the run are those of the invoice itself
        have hnodup : ((db.insert (E.runRows db fresh run (E.contextFor db c) allocations risk)).allocations.map
            (·.id)).Nodup := haccepts.allocationIds
        refine (replayFingerprint_congr hok.allocationIds hnodup rfl ?_).symm
        refine priorAllocations_insert c.purchaseOrder.id fun row hrow => ?_
        obtain ⟨draft, -, hstored⟩ := Lists.exists_of_forall₂_mem (newAllocations_spec hrows) hrow
        rw [hstored.document, hrun]
        rfl

/-- Until something is added, the run goes on answering the call. -/
theorem Answers.mono (h : Answers E db c x run) (hok : ReplaysOk E db) (hok' : ReplaysOk E db')
    (hids : (db'.receipts.map (·.id)).Nodup) (hgrows : Grows db db')
    (hadded : c.mode = .threeWay → ¬ Added db db' c.purchaseOrder.id c.documentId) : Answers E db' c x run := by
  refine ⟨hgrows.runs.subset h.mem, h.base, h.twoWay, fun hmode => ?_⟩
  obtain ⟨y, hy, hid, hfp⟩ := h.threeWay hmode
  obtain ⟨hreceipts, hprior⟩ := eq_of_not_added hgrows hids hok'.allocationIds (hadded hmode)
  refine ⟨y, hgrows.contexts.subset hy, hid, hfp.trans ?_⟩
  exact (replayFingerprint_congr hok.allocationIds hok'.allocationIds hreceipts hprior).symm

theorem Answers.not_added (hsha : Function.Injective E.dumps.sha256) {x' : ExtractionRun}
    (h : Answers E db c x run) (h' : Answers E db' c x' run) (hmode : c.mode = .threeWay) (hok' : ReplaysOk E db')
    (hgrows : Grows db db') (hids : (db.receipts.map (·.id)).Nodup)
    (hcovers : ∀ r ∈ db'.receiptsOf c.purchaseOrder.id, ∃ line ∈ c.purchaseOrder.lines, r.Covers line.id) :
    ¬ Added db db' c.purchaseOrder.id c.documentId := by
  let _ : DecimalContext := E.decimals
  obtain ⟨y, hy, hid, hfp⟩ := h.threeWay hmode
  obtain ⟨y', hy', hid', hfp'⟩ := h'.threeWay hmode
  obtain rfl : y' = y :=
    List.inj_on_of_nodup_map hok'.contextIds hy' (hgrows.contexts.subset hy) (hid'.trans hid.symm)
  rw [hfp] at hfp'
  simp only [Tables.contextOf, build_fingerprints] at hfp'
  exact not_added_of_view hgrows hcovers hids (view_of_replay (same_of_fingerprint hsha hfp'))

theorem RunRouted.repairedElsewhere {a : RiskAssessment} (h : RunRouted E db run a) :
    repairedElsewhere db run = .ok db := by
  have hfind : db.assessments.find? (fun b => b.matchRunId = run.id ∧ b.policyVersion = run.riskPolicyVersion) = some a := by
    have hhead := congrArg List.head? h.assessment
    rw [List.head?_filter] at hhead
    simpa only [Prod.mk.injEq, List.head?_cons] using hhead
  have hcase : ¬ (requiresReview run (some a) = true ∧ db.reviews.cases.find? (·.matchRunId = run.id) = none) := by
    rintro ⟨hreview, hnone⟩
    refine h.opened.cases_ne_nil.2 (requiresReview_iff.1 hreview) ?_
    rw [← List.head?_filter] at hnone
    exact List.head?_eq_none_iff.1 hnone
  rw [InvoiceOps.repairedElsewhere, hfind]
  exact if_neg hcase

/-- A run that is there is returned, and at most triggers are added. -/
theorem replay_ok (hrouting : RoutingOk E db) (hrun : run ∈ db.runs)
    (hx : x ∈ db.extractions) (hxid : x.id = run.extractionRunId) {po : PurchaseOrder}
    (hpo : db.purchaseOrder run.purchaseOrderId = some po) (fresh : FreshIds) :
    ∃ db', E.replay db fresh run = .ok ⟨run, false, db'⟩ ∧ RoutingOk E db' := by
  have hsome : (db.extractions.find? (·.id = run.extractionRunId)).isSome :=
    List.find?_isSome.2 ⟨x, hx, by simpa using hxid⟩
  obtain ⟨x', hx'⟩ := Option.isSome_iff_exists.1 hsome
  obtain ⟨a, ha⟩ := hrouting.routed run hrun
  have hrisk := ha.ensureRisk po x'.invoice fresh.assessmentId
  obtain ⟨hcases, hevents⟩ := ensureReviewCase_stored ha.opened fresh.caseId fresh.now
  by_cases haccepts : db.Accepts (E.repairRows db fresh run ([], [], a))
  · refine ⟨db.insert (E.repairRows db fresh run ([], [], a)), ?_, ?_⟩
    · simp only [MatchingEnv.replay, MatchingEnv.ensureCaseForExisting, hx', hpo, hrisk, if_pos haccepts, Except.map]
    · exact hrouting.insert_nil ⟨rfl, rfl, rfl, hcases, hevents⟩
  · refine ⟨db, ?_, hrouting⟩
    simp only [MatchingEnv.replay, MatchingEnv.ensureCaseForExisting, hx', hpo, hrisk, if_neg haccepts,
      ha.repairedElsewhere, Except.map]

end

section

variable (E : MatchingEnv) (d p : Uuid) (mode : MatchingMode)

/-- The same call again and again, each on the tables the one before has left. -/
def MatchingEnv.callAgain : Tables → List FreshIds → Except MatchError (List MatchServiceResult)
  | _, [] => .ok []
  | db, fresh :: again => do
    let r ← E.callMatch db fresh d p mode
    let rs ← callAgain r.tables again
    return r :: rs

/-- The run is the one the call returns. -/
structure Repeats (db : Tables) (run : MatchRun) : Prop where
  replays : ReplaysOk E db
  routing : RoutingOk E db
  answers : ∃ po x, db.purchaseOrder p = some po ∧ db.currentExtraction d = some x ∧
    Answers E db ⟨d, po, mode⟩ x run

end

section

variable {E : MatchingEnv} {d p : Uuid} {mode : MatchingMode} {db : Tables} {run : MatchRun}

/-- A call that its run answers returns it, and the run goes on answering. -/
theorem Repeats.call (h : Repeats E d p mode db run) (fresh : FreshIds) :
    ∃ db', E.callMatch db fresh d p mode = .ok ⟨run, false, db'⟩ ∧ SameForCalls db db' ∧ Repeats E d p mode db' run := by
  obtain ⟨po, x, hpo, hx, hanswers⟩ := h.answers
  obtain ⟨-, hpoid⟩ := Tables.mem_purchaseOrders hpo
  have hbase : run.documentId = d ∧ run.purchaseOrderId = po.id ∧ run.extractionRunId = x.id :=
    ⟨congrArg MatchKey.documentId hanswers.base, congrArg MatchKey.purchaseOrderId hanswers.base,
      congrArg MatchKey.extractionRunId hanswers.base⟩
  obtain ⟨-, hrunPo, hrunX⟩ := hbase
  obtain ⟨db', hreplay, hrouting⟩ := replay_ok h.routing hanswers.mem (Tables.mem_extractions hx) hrunX.symm
    (by rw [hrunPo, hpoid]; exact hpo) fresh
  have hsame : SameForCalls db db' := .of_replay hreplay
  refine ⟨db', ?_, hsame, ?_⟩
  · simp only [MatchingEnv.callMatch, hpo, hx, findRun_of_answers h.replays hanswers, hreplay]
  · refine ⟨h.replays.congr (hsame.purchaseOrders ▸ List.Subset.refl _) hsame.runs hsame.contexts hsame.allocations,
      hrouting, po, x, ?_, ?_, hanswers.congr hsame⟩
    · rw [Tables.purchaseOrder, hsame.purchaseOrders]
      exact hpo
    · rw [Tables.currentExtraction, hsame.extractions]
      exact hx

theorem Repeats.callAgain (h : Repeats E d p mode db run) (again : List FreshIds) :
    ∃ rs, E.callAgain d p mode db again = .ok rs ∧ rs.length = again.length ∧
      ∀ r ∈ rs, r.run = run ∧ r.created = false ∧ SameForCalls db r.tables := by
  induction again generalizing db with
  | nil => exact ⟨[], rfl, rfl, by simp⟩
  | cons fresh again ih =>
    obtain ⟨db', hcall, hsame, hrepeats⟩ := h.call fresh
    obtain ⟨rs, hagain, hlength, hrs⟩ := ih hrepeats
    refine ⟨⟨run, false, db'⟩ :: rs, ?_, by simp [hlength], fun r hr => ?_⟩
    · simp only [MatchingEnv.callAgain, hcall, hagain, bind, Except.bind, pure, Except.pure]
    · rcases List.mem_cons.1 hr with rfl | hr
      · exact ⟨rfl, rfl, hsame⟩
      · obtain ⟨hrun, hcreated, hlater⟩ := hrs r hr
        exact ⟨hrun, hcreated, hsame.trans hlater⟩

end

theorem db_of_call {E : MatchingEnv} {w w₁ : MatchWorld} {d p : Uuid} {mode : MatchingMode} {fresh : FreshIds}
    {r : MatchServiceResult} (hcall : E.callMatch w.db fresh d p mode = .ok r)
    (hstep : w.nextService E (.call d p mode fresh) = some w₁) : w₁.db = r.tables := by
  simp only [MatchWorld.nextService, hcall] at hstep
  split_ifs at hstep
  rw [← Option.some.inj hstep]

theorem replayInv_of_service {E : MatchingEnv} {acts : List ServiceAct} {w : MatchWorld}
    (h : Steps (MatchWorld.nextService E) .initial acts w) :
    (∃ acts', Steps (MatchWorld.next E) .initial acts' w) ∧ ReplayInv E w ∧ RoutingOk E w.db := by
  obtain ⟨acts', hsteps⟩ := steps_of_service .nil h
  have hrouting : w.Holds (RoutingOk E) (RoutingTxnOk E) :=
    hsteps.invariant (fun _ _ _ hs hn => routing_step hs (matchMoves_of_next hn))
      (Unmatched.holds ⟨rfl, rfl, rfl, rfl, fun _ => rfl⟩)
  exact ⟨⟨acts', hsteps⟩, replayInv_of_steps hsteps, hrouting.tables⟩

theorem grows_of_service {E : MatchingEnv} {acts acts' : List ServiceAct} {w w' : MatchWorld}
    (h : Steps (MatchWorld.nextService E) .initial acts w) (hlater : Steps (MatchWorld.nextService E) w acts' w') :
    Grows w.db w'.db := by
  obtain ⟨⟨acts₁, hsteps⟩, hinv, -⟩ := replayInv_of_service h
  obtain ⟨acts₂, hsteps'⟩ := steps_of_service hsteps hlater
  exact grows_of_steps hinv hsteps'

/-- A table that no step shrinks is not shrunk by the services. -/
theorem subset_of_service {α : Type} {E : MatchingEnv} {f : Tables → List α}
    (hf : ∀ (w w' : MatchWorld) (a : MatchAct), MatchMoves E w a w' → f w.db ⊆ f w'.db)
    {acts acts' : List ServiceAct} {w w' : MatchWorld} (h : Steps (MatchWorld.nextService E) .initial acts w)
    (hlater : Steps (MatchWorld.nextService E) w acts' w') : f w.db ⊆ f w'.db := by
  obtain ⟨⟨acts₁, hsteps⟩, -, -⟩ := replayInv_of_service h
  obtain ⟨acts₂, hsteps'⟩ := steps_of_service hsteps hlater
  exact hsteps'.relates (I := fun _ => True) (R := fun s t => f s.db ⊆ f t.db)
    (fun _ _ _ _ _ => trivial) (fun _ => List.Subset.refl _) (fun _ _ _ => List.Subset.trans)
    (fun s a t _ hn => hf s t a (matchMoves_of_next hn)) trivial

theorem assessments_of_service {E : MatchingEnv} {acts acts' : List ServiceAct} {w w' : MatchWorld}
    (h : Steps (MatchWorld.nextService E) .initial acts w) (hlater : Steps (MatchWorld.nextService E) w acts' w') :
    w.db.assessments ⊆ w'.db.assessments := by
  refine subset_of_service (f := Tables.assessments) (fun w w' a hmoves => ?_) h hlater
  cases hmoves with
  | commit => exact List.subset_append_left _ _
  | _ => exact List.Subset.refl _

/-- A run that needs no review never gets a case: its assessment does not change. -/
theorem casesOf_of_service {E : MatchingEnv} {acts acts' : List ServiceAct} {w w' : MatchWorld} {run : MatchRun}
    (h : Steps (MatchWorld.nextService E) .initial acts w) (hlater : Steps (MatchWorld.nextService E) w acts' w')
    (hrun : run ∈ w.db.runs) (hnone : w.db.reviews.casesOf run.id = []) : w'.db.reviews.casesOf run.id = [] := by
  obtain ⟨-, -, hrouting⟩ := replayInv_of_service h
  obtain ⟨-, -, hrouting'⟩ := replayInv_of_service (h.trans hlater)
  obtain ⟨a, ha⟩ := hrouting.routed run hrun
  obtain ⟨a', ha'⟩ := hrouting'.routed run ((grows_of_service h hlater).runs.subset hrun)
  have hmem := List.mem_filter.1 (ha.assessment ▸ List.mem_singleton_self a)
  obtain rfl : a = a' := by
    refine List.mem_singleton.1 (ha'.assessment ▸ List.mem_filter.2 ⟨?_, hmem.2⟩)
    exact assessments_of_service h hlater hmem.1
  by_contra hcases
  exact ha.opened.cases_ne_nil.2 (ha'.opened.cases_ne_nil.1 hcases) hnone

section

variable {E : MatchingEnv} {w w' : MatchWorld} {d : Uuid} {po : PurchaseOrder} {mode : MatchingMode} {x : ExtractionRun}
  {run : MatchRun}

/-- Until something is added, the run of a call goes on being the one the call returns. -/
theorem Answers.repeats (h : Answers E w.db ⟨d, po, mode⟩ x run) (hpo : po ∈ w.db.purchaseOrders)
    (hinv : ReplayInv E w) (hinv' : ReplayInv E w') (hrouting : RoutingOk E w'.db) (hgrows : Grows w.db w'.db)
    (hx : w'.db.currentExtraction d = some x) (hadded : mode = .threeWay → ¬ Added w.db w'.db po.id d) :
    Repeats E d po.id mode w'.db run := by
  have hpo' : w'.db.purchaseOrder po.id = some po :=
    Lists.find?_key hinv'.allocation.tables.orderIds (hgrows.orders hpo)
  exact ⟨hinv'.tables, hrouting, po, x, hpo', hx,
    h.mono hinv.tables hinv'.tables hinv'.allocation.tables.receiptIds hgrows hadded⟩

/-- Once something is added, the call returns another run. -/
theorem Answers.other_run (hsha : Function.Injective E.dumps.sha256) (h : Answers E w.db ⟨d, po, .threeWay⟩ x run)
    (hpo : po ∈ w.db.purchaseOrders) (hinv : ReplayInv E w) (hinv' : ReplayInv E w') (hgrows : Grows w.db w'.db)
    (hadded : Added w.db w'.db po.id d) {fresh : FreshIds} {r : MatchServiceResult}
    (hcall : E.callMatch w'.db fresh d po.id .threeWay = .ok r) : r.run.id ≠ run.id := by
  intro hid
  have hold : run ∈ w'.db.runs := hgrows.runs.subset h.mem
  have hmem := hgrows.orders hpo
  have hpo' : w'.db.purchaseOrder po.id = some po := Lists.find?_key hinv'.allocation.tables.orderIds hmem
  obtain ⟨po', x', hfound, -, hcalled⟩ := called_of_callMatch hcall
  obtain rfl := Option.some.inj (hpo'.symm.trans hfound)
  cases hcalled with
  | @found run' r hfound hreplay =>
    rw [(replay_cases hreplay).1] at hid
    have hanswers := answers_of_findRun hsha hinv'.tables hinv'.allocation.tables.orderIds hmem hfound
    obtain rfl : run' = run := List.inj_on_of_nodup_map hinv'.tables.runIds hanswers.mem hold hid
    refine h.not_added hsha hanswers rfl hinv'.tables hgrows hinv.allocation.tables.receiptIds ?_ hadded
    exact hinv'.lines.covers hinv'.allocation.tables.orderIds hmem
  | @created found allocations risk run' hrun hrows haccepts =>
    refine (haccepts.runs run' (List.mem_singleton_self run')).1 ?_
    exact hid ▸ List.mem_map_of_mem hold

end

/-- From every reachable state: after a call has returned a run, and as long as the extraction stays the same and
neither a receipt nor a reversal nor an allocation of another document is added, the call returns the run again
however often it is made, and adds no run, no context and no allocation. In three-way mode, once one of them is
added, the next call returns another run. -/
theorem callMatch_repeats (E : MatchingEnv) (hsha : Function.Injective E.dumps.sha256) {acts acts' : List ServiceAct}
    {w w₁ w₂ : MatchWorld} {d p : Uuid} {mode : MatchingMode} {fresh : FreshIds} {r : MatchServiceResult}
    (h : Steps (MatchWorld.nextService E) .initial acts w)
    (hcall : E.callMatch w.db fresh d p mode = .ok r) (hstep : w.nextService E (.call d p mode fresh) = some w₁)
    (hlater : Steps (MatchWorld.nextService E) w₁ acts' w₂) :
    (w₂.db.currentExtraction d = w.db.currentExtraction d → (mode = .threeWay → ¬ Added w₁.db w₂.db p d) →
      ∀ again, ∃ rs, E.callAgain d p mode w₂.db again = .ok rs ∧ rs.length = again.length ∧
        ∀ r' ∈ rs, r'.run = r.run ∧ r'.created = false ∧ r'.tables.runs = w₂.db.runs ∧
          r'.tables.contexts = w₂.db.contexts ∧ r'.tables.allocations = w₂.db.allocations) ∧
    (mode = .threeWay → Added w₁.db w₂.db p d → ∀ fresh' r', E.callMatch w₂.db fresh' d p mode = .ok r' →
      r'.run.id ≠ r.run.id) := by
  obtain ⟨-, hinv, -⟩ := replayInv_of_service h
  obtain ⟨-, hinv₁, -⟩ := replayInv_of_service (h.snoc hstep)
  obtain ⟨-, hinv₂, hrouting₂⟩ := replayInv_of_service ((h.snoc hstep).trans hlater)
  have hgrows : Grows w₁.db w₂.db := grows_of_service (h.snoc hstep) hlater
  have hdb : w₁.db = r.tables := db_of_call hcall hstep
  obtain ⟨po, x, hpo, hx, hcalled⟩ := called_of_callMatch hcall
  obtain ⟨hmem, rfl⟩ := Tables.mem_purchaseOrders hpo
  have hanswers : Answers E w₁.db ⟨d, po, mode⟩ x r.run :=
    hdb ▸ hcalled.answers hsha hinv.tables hinv.allocation.tables.orderIds hmem
  have hmem₁ : po ∈ w₁.db.purchaseOrders := (grows_of_service h (.single hstep)).orders hmem
  constructor
  · intro hextraction hadded again
    have hrepeats := hanswers.repeats hmem₁ hinv₁ hinv₂ hrouting₂ hgrows (hextraction.trans hx) hadded
    obtain ⟨rs, hagain, hlength, hrs⟩ := hrepeats.callAgain again
    refine ⟨rs, hagain, hlength, fun r' hr' => ?_⟩
    obtain ⟨hrun, hcreated, hsame⟩ := hrs r' hr'
    exact ⟨hrun, hcreated, hsame.runs, hsame.contexts, hsame.allocations⟩
  · intro hmode hadded fresh' r' hcall'
    subst hmode
    exact hanswers.other_run hsha hmem₁ hinv₁ hinv₂ hgrows hadded hcall'

def tapFresh (n : ℕ) : FreshIds := ⟨Uuid.ofNat n, fun k => Uuid.ofNat (n + 10 + k), Uuid.ofNat n, Uuid.ofNat n, .first⟩

/-- The tap is ordered, billed and received. -/
def tapArrivals : List ServiceAct :=
  [.act (.createOrder tapPurchase), .act (.extract (tapExtraction 5 4)), .act (.confirmReceipt tapReceipt)]

/-- A second tap arrives. -/
def secondReceipt : GoodsReceipt := { tapReceipt with id := Uuid.ofNat 9, externalReceiptNumber := "GR-2" }

theorem not_added_self {db : Tables} {p d : Uuid} (hids : (db.receipts.map (·.id)).Nodup) : ¬ Added db db p d := by
  rintro (⟨r, hr, hnew⟩ | ⟨r, hr, r', hr', hid, hnone, hreversed⟩ | ⟨a, ha, hnew⟩)
  · exact hnew (List.mem_map_of_mem hr)
  · have hsame : r' = r := List.inj_on_of_nodup_map (hids.sublist (List.filter_sublist.map _)) hr' hr hid
    exact hreversed (hsame ▸ hnone)
  · exact hnew ha

theorem callMatch_repeats_taps : ∃ w w₁ w₂ r, Steps (MatchWorld.nextService tapEnv) .initial tapArrivals w ∧
    tapEnv.callMatch w.db (tapFresh 20) (Uuid.ofNat 4) tapPurchase.id .threeWay = .ok r ∧
    w.nextService tapEnv (.call (Uuid.ofNat 4) tapPurchase.id .threeWay (tapFresh 20)) = some w₁ ∧
    w₁.nextService tapEnv (.act (.confirmReceipt secondReceipt)) = some w₂ ∧
    w₁.db.allocations.length = 1 ∧
    (∃ rs, tapEnv.callAgain (Uuid.ofNat 4) tapPurchase.id .threeWay w₁.db [tapFresh 40, tapFresh 60] = .ok rs ∧
      rs.length = 2 ∧ ∀ r' ∈ rs, r'.run = r.run) ∧
    ∀ fresh' r', tapEnv.callMatch w₂.db fresh' (Uuid.ofNat 4) tapPurchase.id .threeWay = .ok r' →
      r'.run.id ≠ r.run.id := by
  have hexec : (exec (MatchWorld.nextService tapEnv) .initial tapArrivals).any (fun w =>
      (tapEnv.callMatch w.db (tapFresh 20) (Uuid.ofNat 4) tapPurchase.id .threeWay).toOption.isSome &&
      (w.nextService tapEnv (.call (Uuid.ofNat 4) tapPurchase.id .threeWay (tapFresh 20))).any fun w₁ =>
        w₁.db.allocations.length == 1 &&
        (w₁.nextService tapEnv (.act (.confirmReceipt secondReceipt))).any fun w₂ =>
          (w₂.db.receiptsOf tapPurchase.id).any fun r =>
            decide (r.id ∉ (w₁.db.receiptsOf tapPurchase.id).map (·.id))) = true := by
    decide +kernel
  obtain ⟨w, hw, hexec⟩ := (Option.any_eq_true _ _).1 hexec
  obtain ⟨hcalled, hexec⟩ := Bool.and_eq_true_iff.1 hexec
  obtain ⟨w₁, hw₁, hexec⟩ := (Option.any_eq_true _ _).1 hexec
  obtain ⟨hlength, hexec⟩ := Bool.and_eq_true_iff.1 hexec
  obtain ⟨w₂, hw₂, hexec⟩ := (Option.any_eq_true _ _).1 hexec
  obtain ⟨receipt, hreceipt, hnew⟩ := List.any_eq_true.1 hexec
  have hrun : Steps (MatchWorld.nextService tapEnv) .initial tapArrivals w := .of_exec hw
  obtain ⟨r, hr⟩ := Option.isSome_iff_exists.1 hcalled
  have hr := eq_ok_of_toOption hr
  have hids := (replayInv_of_service (hrun.snoc hw₁)).2.1.allocation.tables.receiptIds
  refine ⟨w, w₁, w₂, r, hrun, hr, hw₁, hw₂, by simpa using hlength, ?_, ?_⟩
  · have hextraction : w₁.db.currentExtraction (Uuid.ofNat 4) = w.db.currentExtraction (Uuid.ofNat 4) := by
      obtain ⟨po, x, -, -, hcalled⟩ := called_of_callMatch hr
      rw [db_of_call hr hw₁, Tables.currentExtraction, hcalled.extractions, Tables.currentExtraction]
    obtain ⟨rs, hagain, hlength, hrs⟩ := (callMatch_repeats tapEnv sha256_byteChars_injective hrun hr hw₁ .nil).1
      hextraction (fun _ => not_added_self hids) [tapFresh 40, tapFresh 60]
    exact ⟨rs, hagain, hlength, fun r' hr' => (hrs r' hr').1⟩
  · refine (callMatch_repeats tapEnv sha256_byteChars_injective hrun hr hw₁ (.single hw₂)).2 rfl (.inl ?_)
    exact ⟨receipt, hreceipt, of_decide_eq_true hnew⟩

end InvoiceOps
