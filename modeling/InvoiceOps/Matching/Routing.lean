import InvoiceOps.Matching.DuplicateRace

/-! The rows that go with a run: its features, its assessment and, when its decision or the assessment asks
for a review, its case. A new run is committed together with them. A run that is found again, by a replay or
after a lost race, has them all, so that a repair adds none of them. -/

namespace InvoiceOps

open Calendar StateMachine

/-- The triggers are the reason codes of the run and the signals of the assessment, each once. -/
structure ListsTriggers (run : MatchRun) (a : RiskAssessment) (triggers : List Trigger) : Prop where
  nodup : triggers.Nodup
  mem : ∀ t, t ∈ triggers ↔ (∃ c ∈ run.result.reasonCodes, t = ⟨.matchReason, c.value, run.id⟩) ∨
    ∃ s ∈ a.result.signals, t = ⟨.riskSignal, s.code.value, a.id⟩

theorem triggerSnapshot_lists (run : MatchRun) (a : RiskAssessment) :
    ListsTriggers run a (triggerSnapshot run (some a)) := by
  have hperm := fun ts : List Trigger => List.perm_insertionSort (fun s t => s.key ≤ t.key) ts
  refine ⟨(hperm _).nodup_iff.2 (List.nodup_dedup _), fun t => ?_⟩
  simp only [triggerSnapshot, Option.elim_some]
  rw [(hperm _).mem_iff, List.mem_dedup, List.mem_append, List.mem_map, List.mem_map]
  simp only [eq_comm]

def ReviewStore.casesOf (store : ReviewStore) (runId : Uuid) : List ReviewCase :=
  store.cases.filter (·.matchRunId = runId)

/-- The case was opened for the run, with the triggers of the run in its first event. -/
structure OpenedFor (store : ReviewStore) (run : MatchRun) (a : RiskAssessment) (case : ReviewCase) : Prop where
  unique : store.casesOf run.id = [case]
  first : ∃ e triggers, (store.eventsOf case.id).head? = some e ∧ e.sequenceNumber = 1 ∧
    e.eventType = .caseOpened ∧ e.payload.lookup "review_triggers" = some (.arr (triggers.map triggerJson)) ∧
    ListsTriggers run a triggers

/-- The rows of a run, with `a` as its one assessment. -/
structure Routed (db : Tables) (run : MatchRun) (a : RiskAssessment) : Prop where
  feature : ∃ f, db.features.filter (·.matchRunId = run.id) = [f]
  assessment : db.assessments.filter
    (fun b => (b.matchRunId, b.policyVersion) = (run.id, run.riskPolicyVersion)) = [a]
  case_iff : db.reviews.casesOf run.id ≠ [] ↔ run.decision = .needsReview ∨ a.result.disposition = .needsReview
  opened : ∀ case ∈ db.reviews.casesOf run.id, OpenedFor db.reviews run a case

/-- The cases and events that go with a run: one of each, or none. -/
inductive Opened (B : Builtins) (run : MatchRun) (a : RiskAssessment) : List ReviewCase → List ReviewEvent → Prop
  | review {caseId : Uuid} {now : DateTime} : requiresReview run (some a) = true →
      Opened B run a [openedCase run caseId now] [openedEvent B run (some a) caseId now]
  | clear : requiresReview run (some a) = false → Opened B run a [] []

/-- The events of the cases of a run. -/
def ReviewStore.logOf (store : ReviewStore) (runId : Uuid) : List ReviewEvent :=
  store.events.filter (·.reviewCaseId ∈ (store.casesOf runId).map (·.id))

section

variable {B : Builtins} {store : ReviewStore} {run : MatchRun} {a : RiskAssessment} {caseId : Uuid} {now : DateTime}

theorem requiresReview_iff : requiresReview run (some a) = true ↔
    run.decision = .needsReview ∨ a.result.disposition = .needsReview := by
  simp [requiresReview]

theorem ensureReviewCase_new (hnone : store.casesOf run.id = []) :
    Opened B run a (ensureReviewCase B store run (some a) caseId now).cases
      (ensureReviewCase B store run (some a) caseId now).events := by
  have hfind : store.cases.find? (·.matchRunId = run.id) = none := by
    rw [← List.head?_filter]
    exact congrArg List.head? hnone
  unfold ensureReviewCase
  split_ifs with hreview
  · rw [hfind]
    exact .review hreview
  · exact .clear (by simpa using hreview)

theorem ensureReviewCase_stored {events : List ReviewEvent} (h : Opened B run a (store.casesOf run.id) events)
    (caseId : Uuid) (now : DateTime) :
    (ensureReviewCase B store run (some a) caseId now).cases = [] ∧
      (ensureReviewCase B store run (some a) caseId now).events = [] := by
  have hfind : store.cases.find? (·.matchRunId = run.id) = (store.casesOf run.id).head? :=
    (List.head?_filter).symm
  unfold ensureReviewCase
  generalize store.casesOf run.id = cases at h hfind
  cases h with
  | review hreview =>
    rw [if_pos hreview, hfind]
    exact ⟨rfl, rfl⟩
  | clear hclear =>
    rw [if_neg (by simp [hclear])]
    exact ⟨rfl, rfl⟩

theorem Opened.openedFor {case : ReviewCase} (h : Opened B run a (store.casesOf run.id) (store.logOf run.id))
    (hcase : case ∈ store.casesOf run.id) : OpenedFor store run a case := by
  have hlog : store.logOf run.id = store.events.filter (·.reviewCaseId ∈ (store.casesOf run.id).map (·.id)) := rfl
  generalize hcases : store.casesOf run.id = cases at h hcase hlog
  generalize store.logOf run.id = events at h hlog
  cases h with
  | clear => cases hcase
  | @review caseId now hreview =>
    obtain rfl := List.mem_singleton.1 hcase
    refine ⟨hcases, openedEvent B run (some a) caseId now, triggerSnapshot run (some a), ?_, rfl, rfl, rfl,
      triggerSnapshot_lists run a⟩
    have hevents : store.events.filter (·.reviewCaseId = caseId) = [openedEvent B run (some a) caseId now] := by
      rw [hlog]
      simp [openedCase]
    rw [ReviewStore.eventsOf]
    exact hevents.symm ▸ rfl

end

theorem Opened.mem {B : Builtins} {run : MatchRun} {a : RiskAssessment} {cases : List ReviewCase}
    {events : List ReviewEvent} (h : Opened B run a cases events) :
    (∀ c ∈ cases, c.matchRunId = run.id) ∧ ∀ e ∈ events, e.reviewCaseId ∈ cases.map (·.id) := by
  cases h with
  | review => simp [openedCase, openedEvent, newEvent]
  | clear => simp

theorem Opened.cases_ne_nil {B : Builtins} {run : MatchRun} {a : RiskAssessment} {cases : List ReviewCase}
    {events : List ReviewEvent} (h : Opened B run a cases events) :
    cases ≠ [] ↔ run.decision = .needsReview ∨ a.result.disposition = .needsReview := by
  rw [← requiresReview_iff]
  cases h with
  | review hreview => simp [hreview]
  | clear hclear => simp [hclear]

section

variable {store : ReviewStore} {review : EnsuredReview} {runId : Uuid}

theorem casesOf_insert_of_ne (hcases : ∀ c ∈ review.cases, c.matchRunId = runId) {id : Uuid} (hne : runId ≠ id) :
    (store.insert review).casesOf id = store.casesOf id := by
  have hnil : review.cases.filter (·.matchRunId = id) = [] :=
    List.filter_eq_nil_iff.2 fun c hc heq => hne ((hcases c hc).symm.trans (of_decide_eq_true heq))
  simp only [ReviewStore.casesOf, ReviewStore.insert, List.filter_append, hnil, List.append_nil]

theorem casesOf_insert_self (hcases : ∀ c ∈ review.cases, c.matchRunId = runId) (hnone : store.casesOf runId = []) :
    (store.insert review).casesOf runId = review.cases := by
  have hself : review.cases.filter (·.matchRunId = runId) = review.cases :=
    List.filter_eq_self.2 fun c hc => decide_eq_true (hcases c hc)
  rw [ReviewStore.casesOf] at hnone
  simp only [ReviewStore.casesOf, ReviewStore.insert, List.filter_append, hself, hnone, List.nil_append]

variable (hcases : ∀ c ∈ review.cases, c.matchRunId = runId)
  (hfresh : ∀ c ∈ review.cases, c.id ∉ store.cases.map (·.id))
  (hevents : ∀ e ∈ review.events, e.reviewCaseId ∈ review.cases.map (·.id))

include hcases hfresh hevents

theorem logOf_insert_of_ne {id : Uuid} (hne : runId ≠ id) : (store.insert review).logOf id = store.logOf id := by
  rw [ReviewStore.logOf, casesOf_insert_of_ne hcases hne]
  have hnil : review.events.filter (·.reviewCaseId ∈ (store.casesOf id).map (·.id)) = [] := by
    refine List.filter_eq_nil_iff.2 fun e he hmem => ?_
    obtain ⟨c, hc, hid⟩ := List.mem_map.1 (hevents e he)
    refine hfresh c hc (hid ▸ ?_)
    exact List.map_subset _ (List.filter_subset_self _) (of_decide_eq_true hmem)
  simp only [ReviewStore.insert, List.filter_append, hnil, List.append_nil, ReviewStore.logOf]

theorem logOf_insert_self (hold : ∀ e ∈ store.events, e.reviewCaseId ∈ store.cases.map (·.id))
    (hnone : store.casesOf runId = []) : (store.insert review).logOf runId = review.events := by
  rw [ReviewStore.logOf, casesOf_insert_self hcases hnone]
  have hnil : store.events.filter (·.reviewCaseId ∈ review.cases.map (·.id)) = [] := by
    refine List.filter_eq_nil_iff.2 fun e he hmem => ?_
    obtain ⟨c, hc, hid⟩ := List.mem_map.1 (of_decide_eq_true hmem)
    exact hfresh c hc (hid ▸ hold e he)
  have hself : review.events.filter (·.reviewCaseId ∈ review.cases.map (·.id)) = review.events :=
    List.filter_eq_self.2 fun e he => decide_eq_true (hevents e he)
  simp only [ReviewStore.insert, List.filter_append, hnil, hself, List.nil_append]

end

/-- The rows of a stored run. -/
structure RunRouted (E : MatchingEnv) (db : Tables) (run : MatchRun) (a : RiskAssessment) : Prop where
  version : run.riskPolicyVersion = E.riskPolicy.version
  feature : ∃ f, db.features.filter (·.matchRunId = run.id) = [f]
  assessment : db.assessments.filter
    (fun b => (b.matchRunId, b.policyVersion) = (run.id, run.riskPolicyVersion)) = [a]
  opened : Opened E.builtins run a (db.reviews.casesOf run.id) (db.reviews.logOf run.id)

/-- Every run has its rows, and no row goes without its run or its case. -/
structure RoutingOk (E : MatchingEnv) (db : Tables) : Prop where
  featureRuns : ∀ f ∈ db.features, f.matchRunId ∈ db.runs.map (·.id)
  assessmentRuns : ∀ a ∈ db.assessments, a.matchRunId ∈ db.runs.map (·.id)
  caseRuns : ∀ c ∈ db.reviews.cases, c.matchRunId ∈ db.runs.map (·.id)
  eventCases : ∀ e ∈ db.reviews.events, e.reviewCaseId ∈ db.reviews.cases.map (·.id)
  routed : ∀ r ∈ db.runs, ∃ a, RunRouted E db r a

/-- The rows made for a new run. -/
structure NewRouted (E : MatchingEnv) (run : MatchRun) (rows : NewRows) : Prop where
  version : run.riskPolicyVersion = E.riskPolicy.version
  made : ∃ f a, f.matchRunId = run.id ∧ rows.features = [f] ∧ rows.assessments = [a] ∧ a.matchRunId = run.id ∧
    a.policyVersion = E.riskPolicy.version ∧ Opened E.builtins run a rows.review.cases rows.review.events

/-- What a transaction is about to store: the rows of a run that is new, or nothing but triggers. -/
def RoutingTxnOk (E : MatchingEnv) (db : Tables) : TxnPhase → Prop
  | .decided _ _ _ run _ => run.riskPolicyVersion = E.riskPolicy.version
  | .ready (some _) _ rows => ∃ run, rows.runs = [run] ∧ (run.id ∈ db.runs.map (·.id) ∨ NewRouted E run rows)
  | .ready none _ rows => rows.runs = [] ∧ rows.features = [] ∧ rows.assessments = [] ∧ rows.review.cases = [] ∧
      rows.review.events = []
  | .replaying run => run ∈ db.runs
  | _ => True

section

variable {E : MatchingEnv} {db db' : Tables} {w w' : MatchWorld} {phase phase' : TxnPhase} {run : MatchRun}
  {rows : NewRows}

theorem RoutingTxnOk.mono (hruns : db.runs ⊆ db'.runs) (h : RoutingTxnOk E db phase) :
    RoutingTxnOk E db' phase := by
  cases phase with
  | ready key visible rows =>
    cases key with
    | none => exact h
    | some key =>
      obtain ⟨run, hrun, hold | hnew⟩ := h
      · exact ⟨run, hrun, .inl (List.map_subset _ hruns hold)⟩
      · exact ⟨run, hrun, .inr hnew⟩
  | replaying run => exact hruns h
  | decided => exact h
  | _ => trivial

theorem RoutingOk.congr (h : RoutingOk E db) (hs : SameRows db db') : RoutingOk E db' := by
  obtain ⟨h1, h2, h3, h4, h5⟩ := h
  refine ⟨?_, ?_, ?_, ?_, fun r hr => ?_⟩
  all_goals simp only [hs.runs, hs.features, hs.assessments, hs.reviews] at *
  all_goals try assumption
  obtain ⟨a, ha⟩ := h5 r hr
  refine ⟨a, ha.version, ?_, ?_, ?_⟩
  all_goals simp only [hs.features, hs.assessments, hs.reviews]
  · exact ha.feature
  · exact ha.assessment
  · exact ha.opened

theorem RunRouted.ensureRisk {a : RiskAssessment} (h : RunRouted E db run a) (po : PurchaseOrder) (invoice : Invoice)
    (id : Uuid) : E.ensureRisk db run po invoice id = some ([], [], a) := by
  obtain ⟨f, hf⟩ := h.feature
  have hfmem : f ∈ db.features.filter (·.matchRunId = run.id) := hf ▸ List.mem_singleton_self f
  have hamem : a ∈ db.assessments.filter
      (fun b => (b.matchRunId, b.policyVersion) = (run.id, run.riskPolicyVersion)) :=
    h.assessment ▸ List.mem_singleton_self a
  obtain ⟨hf, hfid⟩ := List.mem_filter.1 hfmem
  obtain ⟨ha, haid⟩ := List.mem_filter.1 hamem
  obtain ⟨b, hb, hbid, hversion, hrisk⟩ := ensureRisk_stored (E := E) po invoice id
    (List.mem_map.2 ⟨f, hf, of_decide_eq_true hfid⟩) (List.mem_map.2 ⟨a, ha, h.version ▸ of_decide_eq_true haid⟩)
  have hbmem : b ∈ db.assessments.filter
      (fun b => (b.matchRunId, b.policyVersion) = (run.id, run.riskPolicyVersion)) := by
    refine List.mem_filter.2 ⟨hb, decide_eq_true ?_⟩
    rw [hbid, hversion, h.version]
  rw [h.assessment] at hbmem
  rw [hrisk, List.mem_singleton.1 hbmem]

theorem RoutingOk.casesOf_eq_nil (h : RoutingOk E db) {id : Uuid} (hid : id ∉ db.runs.map (·.id)) :
    db.reviews.casesOf id = [] := by
  refine List.filter_eq_nil_iff.2 fun c hc heq => hid ?_
  rw [← of_decide_eq_true heq]
  exact h.caseRuns c hc

theorem Reads.routingOk (h : Reads E db phase phase') (hdb : RoutingOk E db) (hok : RoutingTxnOk E db phase) :
    RoutingTxnOk E db phase' := by
  cases h with
  | decide => exact rfl
  | @assess c x b run drafts ids allocations assessmentId risk caseId now hrows hrisk =>
    refine ⟨run, rfl, ?_⟩
    by_cases hrun : run.id ∈ db.runs.map (·.id)
    · exact .inl hrun
    · obtain ⟨features, a, hid, rfl, ha⟩ := ensureRisk_new (Lists.not_mem_keys hdb.featureRuns hrun)
        (Lists.not_mem_keys hdb.assessmentRuns hrun) hrisk
      obtain ⟨found, -, rfl⟩ := Option.map_eq_some_iff.1 ha
      exact .inr ⟨hok, featureRecord features, _, hid, rfl, rfl, hid, rfl,
        ensureReviewCase_new (hdb.casesOf_eq_nil hrun)⟩
  | @repair run x po assessmentId risk caseId now hrisk =>
    obtain ⟨a, ha⟩ := hdb.routed run hok
    have hstored := ha.ensureRisk po x.invoice assessmentId
    obtain rfl := Option.some.inj (hstored.symm.trans hrisk)
    obtain ⟨hcases, hevents⟩ := ensureReviewCase_stored ha.opened caseId now
    exact ⟨rfl, rfl, rfl, hcases, hevents⟩
  | found hrun => exact hrun
  | _ => trivial

/-- Rows without a case or an event leave the cases and the events as they are. -/
theorem reviews_insert_nil (db : Tables) (hcases : rows.review.cases = []) (hevents : rows.review.events = []) :
    (db.insert rows).reviews.cases = db.reviews.cases ∧ (db.insert rows).reviews.events = db.reviews.events := by
  simp [Tables.insert, ReviewStore.insert, hcases, hevents]

theorem RoutingOk.insert_nil (h : RoutingOk E db) (hrows : RoutingTxnOk E db (.ready none [] rows)) :
    RoutingOk E (db.insert rows) := by
  obtain ⟨hruns, hfeatures, hassessments, hcases, hevents⟩ := hrows
  obtain ⟨hcases, hevents⟩ := reviews_insert_nil db hcases hevents
  have hr : (db.insert rows).runs = db.runs := by simp [Tables.insert, hruns]
  have hf : (db.insert rows).features = db.features := by simp [Tables.insert, hfeatures]
  have ha : (db.insert rows).assessments = db.assessments := by simp [Tables.insert, hassessments]
  refine ⟨hr ▸ hf ▸ h.featureRuns, hr ▸ ha ▸ h.assessmentRuns, hr ▸ hcases ▸ h.caseRuns,
    hcases ▸ hevents ▸ h.eventCases, fun r hmem => ?_⟩
  obtain ⟨a, hrouted⟩ := h.routed r (hr ▸ hmem)
  refine ⟨a, hrouted.version, hf ▸ hrouted.feature, ha ▸ hrouted.assessment, ?_⟩
  rw [ReviewStore.logOf, ReviewStore.casesOf, hcases, hevents]
  exact hrouted.opened

/-- A new run is committed with its rows, and those of the other runs stay as they are. -/
theorem RoutingOk.insert (h : RoutingOk E db) (hruns : rows.runs = [run]) (hrows : NewRouted E run rows)
    (haccepts : db.Accepts rows) : RoutingOk E (db.insert rows) := by
  have hfresh : run.id ∉ db.runs.map (·.id) := (haccepts.runs run (by simp [hruns])).1
  have hnone := h.casesOf_eq_nil hfresh
  obtain ⟨f, a, hfid, hfeatures, hassessments, haid, hversion, hopened⟩ := hrows.made
  obtain ⟨hcases, hevents⟩ := hopened.mem
  have hids : ∀ c ∈ rows.review.cases, c.id ∉ db.reviews.cases.map (·.id) := fun c hc => (haccepts.review.1 c hc).1
  have hr : (db.insert rows).runs = db.runs ++ [run] := by rw [Tables.insert, hruns]
  have hf : (db.insert rows).features = db.features ++ [f] := by rw [Tables.insert, hfeatures]
  have ha : (db.insert rows).assessments = db.assessments ++ [a] := by rw [Tables.insert, hassessments]
  refine ⟨?_, ?_, fun c hc => ?_, fun e he => ?_, fun r hmem => ?_⟩
  · rw [hr, hf, List.map_append]
    exact Lists.mem_keys_snoc h.featureRuns hfid
  · rw [hr, ha, List.map_append]
    exact Lists.mem_keys_snoc h.assessmentRuns haid
  · rw [hr, List.map_append]
    rcases List.mem_append.1 hc with hold | hnew
    · exact List.mem_append_left _ (h.caseRuns c hold)
    · exact List.mem_append_right _ (by simp [hcases c hnew])
  · have hmap : (db.insert rows).reviews.cases.map (·.id) =
        db.reviews.cases.map (·.id) ++ rows.review.cases.map (·.id) := List.map_append
    rw [hmap]
    rcases List.mem_append.1 he with hold | hnew
    · exact List.mem_append_left _ (h.eventCases e hold)
    · exact List.mem_append_right _ (hevents e hnew)
  · rw [hr] at hmem
    rcases List.mem_append.1 hmem with hold | hnew
    · -- a run that is there keeps its rows
      have hne : run.id ≠ r.id := fun heq => hfresh (heq ▸ List.mem_map_of_mem hold)
      obtain ⟨b, hb⟩ := h.routed r hold
      refine ⟨b, hb.version, ?_, ?_, ?_⟩
      · rw [hf, Lists.filter_snoc_of_ne (hfid ▸ hne)]
        exact hb.feature
      · have hkey : (a.matchRunId, a.policyVersion) ≠ (r.id, r.riskPolicyVersion) := by
          intro heq
          exact hne (haid.symm.trans (Prod.mk.inj heq).1)
        rw [ha, ← hb.assessment]
        exact Lists.filter_snoc_of_ne hkey
      · rw [show (db.insert rows).reviews = db.reviews.insert rows.review from rfl,
          casesOf_insert_of_ne hcases hne, logOf_insert_of_ne hcases hids hevents hne]
        exact hb.opened
    · obtain rfl := List.mem_singleton.1 hnew
      refine ⟨a, hrows.version, ⟨f, ?_⟩, ?_, ?_⟩
      · rw [hf]
        exact Lists.filter_snoc_self hfid (Lists.not_mem_keys h.featureRuns hfresh)
      · rw [ha, hrows.version]
        refine Lists.filter_snoc_self (by rw [haid, hversion]) fun hmem => hfresh ?_
        obtain ⟨b, hb, hkey⟩ := List.mem_map.1 hmem
        rw [← (Prod.mk.inj hkey).1]
        exact h.assessmentRuns b hb
      · rw [show (db.insert rows).reviews = db.reviews.insert rows.review from rfl,
          casesOf_insert_self hcases hnone, logOf_insert_self hcases hids hevents h.eventCases hnone]
        exact hopened

theorem routing_step {a : MatchAct} (h : w.Holds (RoutingOk E) (RoutingTxnOk E)) (hstep : MatchMoves E w a w') :
    w'.Holds (RoutingOk E) (RoutingTxnOk E) := by
  refine h.step hstep (fun hs hok => hok.congr hs) .mono ?_ (fun hok hread => hread.routingOk h.tables hok) ?_
  · intro db phase hfirst
    cases phase with
    | begun | recovering | receiving | reversing => trivial
    | _ => cases hfirst
  · intro i key visible rows _ hi haccepts
    have hready := h.txns i _ hi
    cases key with
    | none => exact h.tables.insert_nil hready
    | some key =>
      obtain ⟨run, hruns, hold | hrows⟩ := hready
      · exact absurd hold (haccepts.runs run (by simp [hruns])).1
      · exact h.tables.insert hruns hrows haccepts

end

/-- Nothing has been matched yet: there are no runs, no rows that refer to one, and no transactions. -/
structure Unmatched (w : MatchWorld) : Prop where
  runs : w.db.runs = []
  features : w.db.features = []
  assessments : w.db.assessments = []
  reviews : w.db.reviews = .empty
  txns : ∀ i, w.txns i = none

theorem Unmatched.holds {E : MatchingEnv} {w : MatchWorld} (h : Unmatched w) :
    w.Holds (RoutingOk E) (RoutingTxnOk E) := by
  refine ⟨⟨?_, ?_, ?_, ?_, ?_⟩, fun i phase hi => ?_⟩
  · simp [h.features]
  · simp [h.assessments]
  · simp [h.reviews, ReviewStore.empty]
  · simp [h.reviews, ReviewStore.empty]
  · simp [h.runs]
  · rw [h.txns] at hi
    cases hi

/-- Over every interleaving of matches, replays and lost races: every run has one feature record and one
assessment for its policy, and a case exactly when its decision or the assessment asks for a review; the case
is the only one, and its first event opens it with the reason codes and the signals. -/
theorem runs_routed (E : MatchingEnv) {w₀ w : MatchWorld} {acts : List MatchAct} (hstart : Unmatched w₀)
    (h : Steps (MatchWorld.next E) w₀ acts w) : ∀ run ∈ w.db.runs, ∃ a, Routed w.db run a := by
  have hinv : w.Holds (RoutingOk E) (RoutingTxnOk E) :=
    h.invariant (fun _ _ _ hs hn => routing_step hs (matchMoves_of_next hn)) hstart.holds
  intro run hrun
  obtain ⟨a, ha⟩ := hinv.tables.routed run hrun
  exact ⟨a, ha.feature, ha.assessment, ha.opened.cases_ne_nil, fun case hcase => ha.opened.openedFor hcase⟩

/-- Of an invoice that is uploaded twice, the first run is clear and the second has a case. -/
theorem runs_routed_orderlyActs : ∃ w, Steps (MatchWorld.next tapEnv) .initial orderlyActs w ∧
    w.db.runs.length = 2 ∧ w.db.reviews.cases.length = 1 ∧ ∀ run ∈ w.db.runs, ∃ a, Routed w.db run a := by
  have hexec : (exec (MatchWorld.next tapEnv) .initial orderlyActs).map
      (fun w => (w.db.runs.length, w.db.reviews.cases.length)) = some (2, 1) := by
    decide +kernel
  obtain ⟨w, hw, heq⟩ := Option.map_eq_some_iff.1 hexec
  obtain ⟨hruns, hcases⟩ := Prod.mk.inj heq
  exact ⟨w, .of_exec hw, hruns, hcases, runs_routed tapEnv ⟨rfl, rfl, rfl, rfl, fun _ => rfl⟩ (.of_exec hw)⟩

end InvoiceOps
