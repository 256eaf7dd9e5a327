import InvoiceOps.Lib.Lists
import InvoiceOps.Review.Service

/-! `ReviewService.reconcile` (`review/service.py`): a case for every match run that needs one, all in one transaction. It
finds what is missing whatever has happened to the cases before, leaves what is there as it is, and finds nothing to do when
it is run again. -/

namespace InvoiceOps

open Calendar

structure ReconciliationResult where
  inspected : ℕ
  created : ℕ
  alreadyPresent : ℕ
deriving DecidableEq, Repr

/-- The id and the time a new case gets. -/
structure Stamp where
  caseId : Uuid
  now : DateTime

/-- One turn of the loop, which ends with a flush: a row the tables refuse ends the transaction. -/
def reconcileRun (B : Builtins) (riskOf : Uuid → Option RiskAssessment) (stamp : Uuid → Stamp)
    (state : ReviewStore × ReconciliationResult) (run : MatchRun) : Option (ReviewStore × ReconciliationResult) :=
  let rows := ensureReviewCase B state.1 run (riskOf run.id) (stamp run.id).caseId (stamp run.id).now
  if state.1.Accepts rows then
    some (state.1.insert rows,
      { state.2 with
        created := state.2.created + if rows.created then 1 else 0
        alreadyPresent := state.2.alreadyPresent + if rows.created then 0 else 1 })
  else none

/-- The runs the statement selects. -/
def needingReview (runs : List MatchRun) : List MatchRun := runs.filter (·.decision = .needsReview)

/-- `reconcile`, with the runs in the order of their creation; nothing where the transaction fails. -/
def ReviewStore.reconcile (B : Builtins) (store : ReviewStore) (runs : List MatchRun)
    (riskOf : Uuid → Option RiskAssessment) (stamp : Uuid → Stamp) : Option (ReviewStore × ReconciliationResult) :=
  let selected := needingReview runs
  selected.foldlM (reconcileRun B riskOf stamp) (store, ⟨selected.length, 0, 0⟩)

variable {B : Builtins} {riskOf : Uuid → Option RiskAssessment} {stamp stamp' : Uuid → Stamp} {store store' : ReviewStore}
  {run : MatchRun} {counts counts' : ReconciliationResult} {runs : List MatchRun}

/-- The audit of every case succeeds, and a run has at most one case. -/
structure ReviewTables (B : Builtins) (store : ReviewStore) : Prop where
  audit : AuditOk B store
  runs : (store.cases.map (·.matchRunId)).Nodup

theorem ReviewTables.insert {risk : Option RiskAssessment} {caseId : Uuid} {now : DateTime} (h : ReviewTables B store)
    (haccepts : store.Accepts (ensureReviewCase B store run risk caseId now)) :
    ReviewTables B (store.insert (ensureReviewCase B store run risk caseId now)) := by
  refine ⟨h.audit.ensure haccepts, ?_⟩
  rcases ensureReviewCase_rows B store run risk caseId now with ⟨hcases, -⟩ | ⟨hcases, -⟩
  · simp only [ReviewStore.insert, hcases, List.append_nil]
    exact h.runs
  · simp only [ReviewStore.insert, hcases]
    refine Lists.nodup_map_snoc h.runs ?_
    exact (haccepts.1 (openedCase run caseId now) (by simp [hcases])).2

theorem ReviewTables.step (h : ReviewTables B store) (op : ReviewOp) : ReviewTables B (store.step B op) := by
  refine ⟨h.audit.step op, ?_⟩
  cases op with
  | ensure run risk caseId now =>
    by_cases haccepts : store.Accepts (ensureReviewCase B store run risk caseId now)
    · simpa [ReviewStore.step, haccepts] using (h.insert haccepts).runs
    · simpa [ReviewStore.step, haccepts] using h.runs
  | command caseId command now =>
    cases hperform : store.perform B caseId command now with
    | error e => simpa [ReviewStore.step, hperform] using h.runs
    | ok store' =>
      obtain ⟨case, t, previous, -, -, -, rfl⟩ := perform_ok hperform
      -- a command leaves the run of a case as it is
      have hsame : (store.cases.map fun c => if c.id = caseId ∧ c.version = case.version then c.update t now else c).map
          (·.matchRunId) = store.cases.map (·.matchRunId) := by
        rw [List.map_map]
        refine List.map_congr_left fun c _ => ?_
        simp only [Function.comp_apply]
        split_ifs
        · rfl
        · rfl
      simp only [ReviewStore.step, hperform]
      rw [hsame]
      exact h.runs

theorem reviewTables_after (B : Builtins) (ops : List ReviewOp) : ReviewTables B (ReviewStore.after B ops) := by
  unfold ReviewStore.after
  induction ops using List.reverseRecOn with
  | nil => exact ⟨auditOk_empty, List.nodup_nil⟩
  | append_singleton ops op ih =>
    rw [List.foldl_append]
    exact ih.step op

/-- The run has a case, and the case has every trigger of the run. -/
def HasCase (riskOf : Uuid → Option RiskAssessment) (store : ReviewStore) (run : MatchRun) : Prop :=
  ∃ case ∈ store.cases, case.matchRunId = run.id ∧
    ∀ t ∈ triggerSnapshot run (riskOf run.id), ∃ row ∈ store.triggers, row.reviewCaseId = case.id ∧ row.trigger = t

/-- Rows are only added. -/
structure StoreGrows (store store' : ReviewStore) : Prop where
  cases : store.cases <+: store'.cases
  events : store.events <+: store'.events
  triggers : store.triggers <+: store'.triggers

theorem StoreGrows.refl (store : ReviewStore) : StoreGrows store store :=
  ⟨List.prefix_refl _, List.prefix_refl _, List.prefix_refl _⟩

theorem StoreGrows.trans {store'' : ReviewStore} (h : StoreGrows store store') (h' : StoreGrows store' store'') :
    StoreGrows store store'' :=
  ⟨h.cases.trans h'.cases, h.events.trans h'.events, h.triggers.trans h'.triggers⟩

theorem grows_insert (store : ReviewStore) (rows : EnsuredReview) : StoreGrows store (store.insert rows) :=
  ⟨List.prefix_append .., List.prefix_append .., List.prefix_append ..⟩

theorem HasCase.grows (h : HasCase riskOf store run) (hgrows : StoreGrows store store') : HasCase riskOf store' run := by
  obtain ⟨case, hcase, hrun, htriggers⟩ := h
  refine ⟨case, hgrows.cases.subset hcase, hrun, fun t ht => ?_⟩
  obtain ⟨row, hrow, hsame⟩ := htriggers t ht
  exact ⟨row, hgrows.triggers.subset hrow, hsame⟩

/-- The triggers of the snapshot are there, or they are among the new ones. -/
theorem trigger_stored {case : ReviewCase} {risk : Option RiskAssessment} {triggers : List ReviewCaseTrigger} {t : Trigger}
    (h : t ∈ triggerSnapshot run risk) :
    ∃ row ∈ triggers ++ newTriggers triggers case run risk, row.reviewCaseId = case.id ∧ row.trigger = t := by
  by_cases hthere : t ∈ (triggers.filter (·.reviewCaseId = case.id)).map (·.trigger)
  · obtain ⟨row, hrow, rfl⟩ := List.mem_map.1 hthere
    obtain ⟨hrow, hcase⟩ := List.mem_filter.1 hrow
    exact ⟨row, List.mem_append_left _ hrow, of_decide_eq_true hcase, rfl⟩
  · refine ⟨⟨case.id, t, case.openedAt⟩, List.mem_append_right _ (List.mem_map_of_mem ?_), rfl, rfl⟩
    exact List.mem_filter.2 ⟨h, decide_eq_true hthere⟩

theorem newTriggers_unique {case : ReviewCase} {risk : Option RiskAssessment} {triggers : List ReviewCaseTrigger}
    {row : ReviewCaseTrigger} (h : row ∈ newTriggers triggers case run risk) :
    (row.reviewCaseId, row.trigger) ∉ triggers.map fun u => (u.reviewCaseId, u.trigger) := by
  obtain ⟨t, ht, rfl⟩ := List.mem_map.1 h
  obtain ⟨-, hnew⟩ := List.mem_filter.1 ht
  intro hthere
  obtain ⟨u, hu, hsame⟩ := List.mem_map.1 hthere
  obtain ⟨hid, htrigger⟩ := Prod.mk.inj hsame
  refine of_decide_eq_true hnew (List.mem_map.2 ⟨u, List.mem_filter.2 ⟨hu, decide_eq_true hid⟩, htrigger⟩)

theorem requiresReview_of_decision {risk : Option RiskAssessment} (h : run.decision = .needsReview) :
    requiresReview run risk = true := by
  rw [requiresReview, decide_eq_true h, Bool.true_or]

/-- A turn of the loop: the run has its case afterwards, counted as a new one exactly when there was none. -/
theorem reconcileRun_spec (h : ReviewTables B store) (hrun : run.decision = .needsReview)
    (hunused : (stamp run.id).caseId ∉ store.cases.map (·.id)) :
    ∃ store' counts', reconcileRun B riskOf stamp (store, counts) run = some (store', counts') ∧ ReviewTables B store' ∧
      StoreGrows store store' ∧ HasCase riskOf store' run ∧ counts'.inspected = counts.inspected ∧
      counts'.created + counts'.alreadyPresent = counts.created + counts.alreadyPresent + 1 ∧
      store'.cases.map (·.id) ⊆ (stamp run.id).caseId :: store.cases.map (·.id) := by
  have hrequired : requiresReview run (riskOf run.id) = true := requiresReview_of_decision hrun
  cases hfind : store.cases.find? (·.matchRunId = run.id) with
  | some existing =>
    have hrows : ensureReviewCase B store run (riskOf run.id) (stamp run.id).caseId (stamp run.id).now =
        ⟨some existing, false, [], [], newTriggers store.triggers existing run (riskOf run.id)⟩ := by
      simp only [ensureReviewCase, hrequired, hfind, if_true]
    have haccepts : store.Accepts (ensureReviewCase B store run (riskOf run.id) (stamp run.id).caseId (stamp run.id).now) := by
      rw [hrows]
      exact ⟨fun c hc => (nomatch hc), fun t ht => newTriggers_unique ht⟩
    refine ⟨_, _, if_pos haccepts, h.insert haccepts, grows_insert .., ?_, rfl, ?_, ?_⟩
    · have hmatches := List.find?_some hfind
      refine ⟨existing, List.mem_append_left _ (List.mem_of_find?_eq_some hfind), of_decide_eq_true hmatches, ?_⟩
      rw [hrows]
      exact fun t ht => trigger_stored ht
    · simp only [hrows]
      exact (Nat.add_assoc ..).symm
    · simp only [ReviewStore.insert, hrows, List.append_nil]
      exact List.subset_cons_self ..
  | none =>
    have hrows : ensureReviewCase B store run (riskOf run.id) (stamp run.id).caseId (stamp run.id).now =
        ⟨some (openedCase run (stamp run.id).caseId (stamp run.id).now), true,
          [openedCase run (stamp run.id).caseId (stamp run.id).now],
          [openedEvent B run (riskOf run.id) (stamp run.id).caseId (stamp run.id).now],
          newTriggers store.triggers (openedCase run (stamp run.id).caseId (stamp run.id).now) run (riskOf run.id)⟩ := by
      simp only [ensureReviewCase, hrequired, hfind, if_true]
    have hnew : run.id ∉ store.cases.map (·.matchRunId) := by
      intro hmem
      obtain ⟨c, hc, hsame⟩ := List.mem_map.1 hmem
      exact List.find?_eq_none.1 hfind c hc (decide_eq_true hsame)
    have haccepts : store.Accepts (ensureReviewCase B store run (riskOf run.id) (stamp run.id).caseId (stamp run.id).now) := by
      rw [hrows]
      refine ⟨fun c hc => ?_, fun t ht => newTriggers_unique ht⟩
      obtain rfl := List.mem_singleton.1 hc
      exact ⟨hunused, hnew⟩
    refine ⟨_, _, if_pos haccepts, h.insert haccepts, grows_insert .., ?_, rfl, ?_, ?_⟩
    · refine ⟨openedCase run (stamp run.id).caseId (stamp run.id).now, ?_, rfl, ?_⟩
      · simp only [ReviewStore.insert, hrows]
        exact List.mem_append_right _ (List.mem_singleton_self _)
      · simp only [ReviewStore.insert, hrows]
        exact fun t ht => trigger_stored ht
    · simp only [hrows]
      exact Nat.add_right_comm ..
    · simp only [ReviewStore.insert, hrows, List.map_append, List.map_singleton]
      intro id hid
      obtain hid | hid := List.mem_append.1 hid
      · exact List.mem_cons_of_mem _ hid
      · rw [List.mem_singleton.1 hid]
        exact List.mem_cons_self

theorem reconcileRun_present (h : ReviewTables B store) (hrun : run.decision = .needsReview) (hcases : HasCase riskOf store run) :
    reconcileRun B riskOf stamp (store, counts) run =
      some (store, { counts with alreadyPresent := counts.alreadyPresent + 1 }) := by
  obtain ⟨case, hcase, hsame, htriggers⟩ := hcases
  have hfind : store.cases.find? (·.matchRunId = run.id) = some case := by
    rw [← hsame]
    exact Lists.find?_key h.runs hcase
  have hnone : newTriggers store.triggers case run (riskOf run.id) = [] := by
    refine List.map_eq_nil_iff.2 (List.filter_eq_nil_iff.2 fun t ht hnew => ?_)
    obtain ⟨row, hrow, hid, rfl⟩ := htriggers t ht
    exact of_decide_eq_true hnew (List.mem_map_of_mem (List.mem_filter.2 ⟨hrow, decide_eq_true hid⟩))
  have hrows : ensureReviewCase B store run (riskOf run.id) (stamp run.id).caseId (stamp run.id).now =
      ⟨some case, false, [], [], []⟩ := by
    simp only [ensureReviewCase, requiresReview_of_decision hrun, hfind, hnone, if_true]
  have haccepts : store.Accepts ⟨some case, false, [], [], []⟩ := ⟨fun c hc => (nomatch hc), fun t ht => (nomatch ht)⟩
  simp only [reconcileRun, hrows, if_pos haccepts, ReviewStore.insert, List.append_nil, Bool.false_eq_true, if_false,
    Nat.add_zero]

theorem reconcileRuns_spec (h : ReviewTables B store) (hruns : ∀ run ∈ runs, run.decision = .needsReview)
    (hstamps : (runs.map fun run => (stamp run.id).caseId).Nodup)
    (hunused : ∀ run ∈ runs, (stamp run.id).caseId ∉ store.cases.map (·.id)) :
    ∃ store' counts', runs.foldlM (reconcileRun B riskOf stamp) (store, counts) = some (store', counts') ∧
      ReviewTables B store' ∧ StoreGrows store store' ∧ (∀ run ∈ runs, HasCase riskOf store' run) ∧
      counts'.inspected = counts.inspected ∧
      counts'.created + counts'.alreadyPresent = counts.created + counts.alreadyPresent + runs.length := by
  induction runs generalizing store counts with
  | nil => exact ⟨store, counts, rfl, h, .refl store, fun run hrun => (nomatch hrun), rfl, rfl⟩
  | cons run rest ih =>
    obtain ⟨hfirst, hrest⟩ := List.nodup_cons.1 hstamps
    obtain ⟨mid, midCounts, hturn, hmid, hgrows, hcases, hinspected, hcounted, hids⟩ := @reconcileRun_spec B riskOf stamp store
      run counts h (hruns run List.mem_cons_self) (hunused run List.mem_cons_self)
    have hunused' : ∀ run' ∈ rest, (stamp run'.id).caseId ∉ mid.cases.map (·.id) := by
      intro run' hrun' hmem
      obtain hsame | hold := List.mem_cons.1 (hids hmem)
      · exact hfirst (List.mem_map.2 ⟨run', hrun', hsame⟩)
      · exact hunused run' (List.mem_cons_of_mem _ hrun') hold
    obtain ⟨last, lastCounts, hturns, hlast, hgrows', hcaseRest, hinspected', hcounted'⟩ := @ih mid midCounts hmid
      (fun run' hrun' => hruns run' (List.mem_cons_of_mem _ hrun')) hrest hunused'
    refine ⟨last, lastCounts, ?_, hlast, hgrows.trans hgrows', fun run' hrun' => ?_, hinspected'.trans hinspected, ?_⟩
    · rw [List.foldlM_cons, hturn]
      exact hturns
    · obtain rfl | hrun' := List.mem_cons.1 hrun'
      · exact hcases.grows hgrows'
      · exact hcaseRest run' hrun'
    · rw [List.length_cons]
      omega

theorem reconcileRuns_present (h : ReviewTables B store) (hruns : ∀ run ∈ runs, run.decision = .needsReview)
    (hcases : ∀ run ∈ runs, HasCase riskOf store run) :
    runs.foldlM (reconcileRun B riskOf stamp) (store, counts) =
      some (store, { counts with alreadyPresent := counts.alreadyPresent + runs.length }) := by
  induction runs generalizing counts with
  | nil => rfl
  | cons run rest ih =>
    rw [List.foldlM_cons, reconcileRun_present h (hruns run List.mem_cons_self) (hcases run List.mem_cons_self)]
    refine (ih (fun run' hrun' => hruns run' (List.mem_cons_of_mem _ hrun'))
      fun run' hrun' => hcases run' (List.mem_cons_of_mem _ hrun')).trans ?_
    rw [List.length_cons, Nat.add_assoc, Nat.add_comm 1]

/-- A reconciliation after any sequence of operations succeeds: every run that needs a review has exactly one case
afterwards, with all its triggers, nothing that was there is changed, the audit of every case still succeeds, and the next
reconciliation finds all the cases and does nothing. -/
theorem reconcile_complete (B : Builtins) (ops : List ReviewOp) {runs : List MatchRun}
    (riskOf : Uuid → Option RiskAssessment) {stamp : Uuid → Stamp}
    (hstamps : ((needingReview runs).map fun run => (stamp run.id).caseId).Nodup)
    (hunused : ∀ run ∈ needingReview runs, (stamp run.id).caseId ∉ (ReviewStore.after B ops).cases.map (·.id)) :
    ∃ store' counts, (ReviewStore.after B ops).reconcile B runs riskOf stamp = some (store', counts) ∧
      counts.inspected = (needingReview runs).length ∧ counts.created + counts.alreadyPresent = counts.inspected ∧
      (∀ run ∈ needingReview runs, HasCase riskOf store' run ∧
        (store'.cases.filter fun case => case.matchRunId = run.id).length = 1) ∧
      StoreGrows (ReviewStore.after B ops) store' ∧
      (∀ case ∈ store'.cases, ∃ report, store'.verifyAudit B case.id = some report ∧ report.valid = true) ∧
      ∀ stamp', store'.reconcile B runs riskOf stamp' =
        some (store', ⟨(needingReview runs).length, 0, (needingReview runs).length⟩) := by
  have hselected : ∀ run ∈ needingReview runs, run.decision = .needsReview := fun run hrun =>
    of_decide_eq_true (List.mem_filter.1 hrun).2
  obtain ⟨store', counts, hall, htables, hgrows, hcases, hinspected, hcounted⟩ := @reconcileRuns_spec B riskOf stamp _
    ⟨(needingReview runs).length, 0, 0⟩ (needingReview runs) (reviewTables_after B ops) hselected hstamps hunused
  refine ⟨store', counts, hall, hinspected, ?_, fun run hrun => ⟨hcases run hrun, ?_⟩, hgrows, fun case hcase => ?_,
    fun stamp' => ?_⟩
  · rw [hcounted, hinspected]
    simp
  · obtain ⟨case, hcase, hsame, -⟩ := hcases run hrun
    rw [← hsame, Lists.filter_key htables.runs hcase, List.length_singleton]
  · have hfind := Lists.find?_key htables.audit.ids hcase
    have hlog := htables.audit.logs case hcase
    have hevents := eventsOf_eq hlog
    rw [← hevents] at hlog
    refine ⟨_, by rw [ReviewStore.verifyAudit, hfind]; rfl, ?_⟩
    exact List.isEmpty_iff.2 hlog.verifyAudit.1
  · refine (reconcileRuns_present htables hselected hcases).trans ?_
    rw [Nat.zero_add]

/-- One run has been resolved already, the other one has no case. -/
def laterRun : MatchRun := { reviewedRun with id := Uuid.ofNat 7 }

def laterStamp (id : Uuid) : Stamp := ⟨if id = Uuid.ofNat 7 then Uuid.ofNat 20 else Uuid.ofNat 21, .first⟩

theorem reconcile_complete_later : ∃ store' counts,
    (ReviewStore.after byteChars resolvedOps).reconcile byteChars [reviewedRun, laterRun] (fun _ => none) laterStamp =
      some (store', counts) ∧ counts.inspected = 2 ∧ HasCase (fun _ => none) store' laterRun ∧
    ∀ stamp', store'.reconcile byteChars [reviewedRun, laterRun] (fun _ => none) stamp' = some (store', ⟨2, 0, 2⟩) := by
  obtain ⟨store', counts, hall, hinspected, -, hcases, -, -, hagain⟩ := @reconcile_complete byteChars resolvedOps
    [reviewedRun, laterRun] (fun _ => none) laterStamp (by decide +kernel) (by decide +kernel)
  have hlater : laterRun ∈ needingReview [reviewedRun, laterRun] :=
    List.mem_filter.2 ⟨List.mem_cons_of_mem _ (List.mem_singleton_self _), rfl⟩
  exact ⟨store', counts, hall, hinspected, (hcases laterRun hlater).1, hagain⟩

end InvoiceOps
