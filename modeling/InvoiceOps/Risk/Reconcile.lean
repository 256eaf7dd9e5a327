import InvoiceOps.Risk.Assessing

/-! Reconciliation of the risk assessments (`risk/service.py`): every stored run is assessed again and its review is
ensured, each in a savepoint of its own. The counters stand outside the savepoint, and a run is counted as assessed
before its review is ensured. A run whose review then fails is counted twice. -/

namespace InvoiceOps

open Calendar

/-- A stored run; its result is the JSON that is in the column. -/
structure HistoricalRun where
  id : Uuid
  documentId : Uuid
  purchaseOrderId : Uuid
  extractionRunId : Uuid
  policyVersion : String
  matchingMode : MatchingMode
  matchingContextFingerprint : String
  riskPolicyVersion : String
  decision : MatchDecision
  resultJson : Json

/-- The run with the result that was read from its column. -/
def HistoricalRun.withResult (run : HistoricalRun) (result : MatchResult) : MatchRun where
  id := run.id
  documentId := run.documentId
  purchaseOrderId := run.purchaseOrderId
  extractionRunId := run.extractionRunId
  policyVersion := run.policyVersion
  matchingMode := run.matchingMode
  matchingContextFingerprint := run.matchingContextFingerprint
  riskPolicyVersion := run.riskPolicyVersion
  decision := run.decision
  result := result

def HistoricalRun.unread (run : HistoricalRun) : MatchRun := run.withResult ⟨run.decision, ⟨0, 0, 0, 0, 0⟩, [], [], []⟩

/-- An extraction run with its column `output_json`. -/
structure HistoricalExtraction where
  id : Uuid
  outputJson : Option Json

/-- The tables that a reconciliation reads and writes; the runs are in the order of the query. -/
structure RiskDatabase where
  runs : List HistoricalRun
  extractions : List HistoricalExtraction
  purchaseOrders : List PurchaseOrder
  rows : RiskRows
  reviews : ReviewStore

/-- The policy and the services; a schema that refuses a stored JSON is a `ValueError`. -/
structure ReconcileEnv where
  text : Unicode
  similarity : String → String → Decimal
  policy : DuplicateRiskPolicy
  builtins : Builtins
  readInvoice : Json → Option Invoice
  readResult : Json → Option MatchResult

/-- The ids and the time that are made up for a run. -/
structure FreshReview where
  assessmentId : Uuid
  caseId : Uuid
  now : DateTime

inductive ReconcileFault
  | risk (e : RiskFault)
  | integrity
deriving DecidableEq, Repr

/-- How the savepoint of a run ends. -/
inductive Turn
  | done (db : RiskDatabase) (created : Bool)
  /-- A `ValueError` or `TypeError`, and what was counted before it. -/
  | failed (counted : Option Bool)
  /-- Any other error leaves the loop. -/
  | raised (e : ReconcileFault)

section

variable (E : ReconcileEnv) (fresh : Uuid → FreshReview) (db : RiskDatabase) (run : HistoricalRun)

/-- The order and the invoice of a run; none is the `ValueError` of the missing or unreadable ones. -/
def RiskDatabase.source : Option (PurchaseOrder × Invoice) :=
  match db.extractions.find? (·.id = run.extractionRunId), db.purchaseOrders.find? (·.id = run.purchaseOrderId) with
  | some extraction, some po => (extraction.outputJson.bind E.readInvoice).map fun invoice => (po, invoice)
  | _, _ => none

def ReconcileEnv.call (source : PurchaseOrder × Invoice) : RiskCall where
  policy := E.policy
  run := run.unread
  purchaseOrder := source.1
  invoice := source.2
  assessmentId := (fresh run.id).assessmentId

/-- The rows after the assessment of a run; a new one sets the policy version of the run. -/
def RiskDatabase.assessed (rows : RiskRows) (created : Bool) : RiskDatabase :=
  { db with
    rows := rows
    runs := if created then
        db.runs.map fun r => if r.id = run.id then { r with riskPolicyVersion := E.policy.version } else r
      else db.runs }

/-- `ensure_review_case` for an assessed run: the result of the run is read where it requires a review. -/
def RiskDatabase.review (a : RiskAssessment) (created : Bool) : Turn :=
  if requiresReview run.unread (some a) then
    match E.readResult run.resultJson with
    | none => .failed (some created)
    | some result =>
      let rows := ensureReviewCase E.builtins db.reviews (run.withResult result) (some a) (fresh run.id).caseId
        (fresh run.id).now
      if db.reviews.Accepts rows then .done { db with reviews := db.reviews.insert rows } created
      else .raised .integrity
  else .done db created

/-- The savepoint of one run. -/
def RiskDatabase.turn : Turn :=
  match db.source E run with
  | none => .failed none
  | some source =>
    match db.rows.ensure E.text E.similarity (E.call fresh run source) with
    | .error .ownRun => .failed none
    | .error e => .raised (.risk e)
    | .ok (rows, a, created) => (db.assessed E run rows created).review E fresh run a created

end

/-- The counters, with the runs that were counted as failed. -/
structure Tally where
  created : ℕ
  reused : ℕ
  failed : List Uuid

def Tally.count (t : Tally) (created : Bool) : Tally :=
  if created then { t with created := t.created + 1 } else { t with reused := t.reused + 1 }

def Tally.fail (t : Tally) (id : Uuid) : Tally := { t with failed := t.failed ++ [id] }

def Tally.total (t : Tally) : ℕ := t.created + t.reused + t.failed.length

section

variable (E : ReconcileEnv) (fresh : Uuid → FreshReview)

/-- One pass of the loop; a failed savepoint is rolled back, its counters are not. -/
def reconcileStep (s : RiskDatabase × Tally) (run : HistoricalRun) : Except ReconcileFault (RiskDatabase × Tally) :=
  match s.1.turn E fresh run with
  | .done db created => .ok (db, s.2.count created)
  | .failed none => .ok (s.1, s.2.fail run.id)
  | .failed (some created) => .ok (s.1, (s.2.count created).fail run.id)
  | .raised e => .error e

/-- `reconcile`: the committed tables and the counters; an error leaves the tables as they were. -/
def RiskDatabase.reconcile (db : RiskDatabase) : Except ReconcileFault (RiskDatabase × Tally) :=
  db.runs.foldlM (reconcileStep E fresh) (db, ⟨0, 0, []⟩)

end

/-- No row of the run is added or changed. -/
structure SameRunRows (id : Uuid) (db db' : RiskDatabase) : Prop where
  run : db'.runs.filter (·.id = id) = db.runs.filter (·.id = id)
  features : db'.rows.features.filter (·.matchRunId = id) = db.rows.features.filter (·.matchRunId = id)
  assessments : db'.rows.assessments.filter (·.matchRunId = id) = db.rows.assessments.filter (·.matchRunId = id)
  cases : db'.reviews.cases.filter (·.matchRunId = id) = db.reviews.cases.filter (·.matchRunId = id)
  events : ∀ case ∈ db.reviews.cases.filter (·.matchRunId = id),
    db'.reviews.events.filter (·.reviewCaseId = case.id) = db.reviews.events.filter (·.reviewCaseId = case.id)
  triggers : ∀ case ∈ db.reviews.cases.filter (·.matchRunId = id),
    db'.reviews.triggers.filter (·.reviewCaseId = case.id) = db.reviews.triggers.filter (·.reviewCaseId = case.id)

/-- The call returns; every run is counted once, the new assessments are those that were counted as created, and the
runs that were counted as failed have the rows they had. -/
def Reconciles (E : ReconcileEnv) (fresh : Uuid → FreshReview) (db : RiskDatabase) : Prop :=
  ∃ db' t, db.reconcile E fresh = .ok (db', t) ∧ db.runs.length = t.created + t.reused + t.failed.length ∧
    db'.rows.assessments.length = db.rows.assessments.length + t.created ∧ ∀ id ∈ t.failed, SameRunRows id db db'

/-- What the primary keys and the service promise of the tables. -/
structure RiskDatabase.Sound (db : RiskDatabase) : Prop where
  runs : (db.runs.map (·.id)).Nodup
  rows : db.rows.Right
  cases : (db.reviews.cases.map (·.id)).Nodup

section

variable (E : ReconcileEnv) (fresh : Uuid → FreshReview)

/-- A run fails before it is counted, or goes through: its row fits its columns, the days around its date are in range
or not needed, and where a review is required its result can be read and a new case gets an unused id. -/
def RiskDatabase.Steady (db : RiskDatabase) (run : HistoricalRun) : Prop :=
  ∀ source, db.source E run = some source →
    (run.id ∈ db.rows.features.map (·.matchRunId) ∨ (listedRecord ((E.call fresh run source).features E.text)).Fits) ∧
    ((∃ a ∈ db.rows.assessments, a.matchRunId = run.id ∧ a.policyVersion = E.policy.version) ∨
      WindowInRange E.policy (db.rows.record E.text (E.call fresh run source)).toRiskFeatureRecord) ∧
    ∀ r, db.rows.ensure E.text E.similarity (E.call fresh run source) = .ok r →
      requiresReview run.unread (some r.2.1) = true → (E.readResult run.resultJson).isSome = true ∧
        (run.id ∈ db.reviews.cases.map (·.matchRunId) ∨ (fresh run.id).caseId ∉ db.reviews.cases.map (·.id))

def Turn.after (db : RiskDatabase) : Turn → RiskDatabase
  | .done db' _ => db'
  | .failed _ | .raised _ => db

/-- Each run meets the condition in the tables before its turn. -/
def AllSteady : List HistoricalRun → RiskDatabase → Prop
  | [], _ => True
  | run :: runs, db => db.Steady E fresh run ∧ AllSteady runs ((db.turn E fresh run).after db)

end

section

variable {U : Unicode} {similarity : String → String → Decimal} {rows rows' : RiskRows} {c : RiskCall} {a : RiskAssessment}
  {created : Bool}

theorem ensure_adds (h : rows.ensure U similarity c = .ok (rows', a, created)) :
    (rows'.features = rows.features ∨ ∃ r : ListedRecord, r.matchRunId = c.run.id ∧ rows'.features = rows.features ++ [r]) ∧
      (created = false ∧ rows'.assessments = rows.assessments ∨
        created = true ∧ a.matchRunId = c.run.id ∧ rows'.assessments = rows.assessments ++ [a]) := by
  unfold RiskRows.ensure at h
  cases hrecord : rows.ensureFeatureRecord U c with
  | error e =>
    rw [hrecord] at h
    cases h
  | ok rows₁ =>
    rw [hrecord] at h
    obtain ⟨hsame, hadded⟩ := ensureFeatureRecord_cases hrecord
    have hfeatures : rows₁.features = rows.features ∨
        ∃ r : ListedRecord, r.matchRunId = c.run.id ∧ rows₁.features = rows.features ++ [r] := by
      rcases hadded with ⟨-, rfl⟩ | ⟨-, -, happended⟩
      · exact .inl rfl
      · exact .inr ⟨_, matchRunId_record, happended⟩
    cases hfound : rows.findForMatch c with
    | some a' =>
      rw [hfound] at h
      cases h
      exact ⟨hfeatures, .inl ⟨rfl, hsame⟩⟩
    | none =>
      rw [hfound] at h
      simp only at h
      cases hassess : rows₁.assess U similarity c with
      | error e =>
        rw [hassess] at h
        cases h
      | ok a' =>
        rw [hassess] at h
        cases h
        refine ⟨hfeatures, .inr ⟨rfl, ?_, by rw [hsame]⟩⟩
        unfold RiskRows.assess at hassess
        split at hassess
        · cases hassess
        · simp only at hassess
          split at hassess
          · cases hassess
          · split at hassess
            · cases hassess
            · cases hassess
              rfl

end

section

variable {B : Builtins} {store : ReviewStore} {run : MatchRun} {risk : Option RiskAssessment} {caseId : Uuid} {now : DateTime}

theorem newTriggers_case {triggers : List ReviewCaseTrigger} {case : ReviewCase} {t : ReviewCaseTrigger}
    (h : t ∈ newTriggers triggers case run risk) : t.reviewCaseId = case.id := by
  obtain ⟨-, -, rfl⟩ := List.mem_map.1 h
  rfl

variable (B store run risk caseId now) in
/-- A review adds triggers to the case of the run, or a new case of the run with its event and its triggers. -/
theorem ensureReviewCase_cases :
    (ensureReviewCase B store run risk caseId now).cases = [] ∧
        (ensureReviewCase B store run risk caseId now).events = [] ∧
        (∀ t ∈ (ensureReviewCase B store run risk caseId now).triggers,
          ∃ case ∈ store.cases, case.matchRunId = run.id ∧ t.reviewCaseId = case.id) ∨
      run.id ∉ store.cases.map (·.matchRunId) ∧
        (ensureReviewCase B store run risk caseId now).cases = [openedCase run caseId now] ∧
        (ensureReviewCase B store run risk caseId now).events = [openedEvent B run risk caseId now] ∧
        ∀ t ∈ (ensureReviewCase B store run risk caseId now).triggers, t.reviewCaseId = caseId := by
  unfold ensureReviewCase
  split_ifs
  · cases hfind : store.cases.find? (·.matchRunId = run.id) with
    | some case =>
      refine .inl ⟨rfl, rfl, fun t ht => ⟨case, List.mem_of_find?_eq_some hfind, ?_, newTriggers_case ht⟩⟩
      simpa using List.find?_some hfind
    | none =>
      have hnone : run.id ∉ store.cases.map (·.matchRunId) := by
        simpa [List.find?_eq_none] using hfind
      exact .inr ⟨hnone, rfl, rfl, fun t ht => newTriggers_case ht⟩
  · exact .inl ⟨rfl, rfl, by simp⟩

theorem ensureReviewCase_own (hids : (store.cases.map (·.id)).Nodup)
    (haccepts : store.Accepts (ensureReviewCase B store run risk caseId now)) :
    (∀ c ∈ (ensureReviewCase B store run risk caseId now).cases, c.matchRunId = run.id) ∧
      ∀ case ∈ store.cases, case.matchRunId ≠ run.id →
        (∀ e ∈ (ensureReviewCase B store run risk caseId now).events, e.reviewCaseId ≠ case.id) ∧
          ∀ t ∈ (ensureReviewCase B store run risk caseId now).triggers, t.reviewCaseId ≠ case.id := by
  rcases ensureReviewCase_cases B store run risk caseId now with
    ⟨hnone, hevents, htriggers⟩ | ⟨-, hopened, hevents, htriggers⟩
  · rw [hnone, hevents]
    refine ⟨by simp, fun case hcase hother => ⟨by simp, fun t ht heq => ?_⟩⟩
    obtain ⟨case', hcase', hrun, hid⟩ := htriggers t ht
    have hsame : case' = case := List.inj_on_of_nodup_map hids hcase' hcase (hid.symm.trans heq)
    exact hother (hsame ▸ hrun)
  · have hnew : caseId ∉ store.cases.map (·.id) := (haccepts.1 _ (hopened ▸ List.mem_singleton.2 rfl)).1
    rw [hopened, hevents]
    refine ⟨?_, fun case hcase _ => ⟨?_, fun t ht heq => ?_⟩⟩
    · intro c hc
      rw [List.mem_singleton.1 hc]
      rfl
    · intro e he heq
      rw [List.mem_singleton.1 he] at heq
      exact hnew (List.mem_map.2 ⟨case, hcase, heq.symm⟩)
    · rw [htriggers t ht] at heq
      exact hnew (List.mem_map.2 ⟨case, hcase, heq.symm⟩)

theorem newTriggers_new {triggers : List ReviewCaseTrigger} {case : ReviewCase} {t : ReviewCaseTrigger}
    (h : t ∈ newTriggers triggers case run risk) :
    (t.reviewCaseId, t.trigger) ∉ triggers.map fun u => (u.reviewCaseId, u.trigger) := by
  obtain ⟨x, hx, rfl⟩ := List.mem_map.1 h
  intro hmem
  obtain ⟨u, hu, heq⟩ := List.mem_map.1 hmem
  obtain ⟨hcase, htrigger⟩ := Prod.mk.inj heq
  have hnot := (List.mem_filter.1 hx).2
  simp only [decide_eq_true_eq] at hnot
  exact hnot (List.mem_map.2 ⟨u, List.mem_filter.2 ⟨hu, by simpa using hcase⟩, htrigger⟩)

theorem accepts_iff (hrequired : requiresReview run risk = true) :
    store.Accepts (ensureReviewCase B store run risk caseId now) ↔
      run.id ∈ store.cases.map (·.matchRunId) ∨ caseId ∉ store.cases.map (·.id) := by
  unfold ensureReviewCase ReviewStore.Accepts
  rw [if_pos hrequired]
  cases hfind : store.cases.find? (·.matchRunId = run.id) with
  | some case =>
    have hmem : run.id ∈ store.cases.map (·.matchRunId) :=
      List.mem_map.2 ⟨case, List.mem_of_find?_eq_some hfind, by simpa using List.find?_some hfind⟩
    exact iff_of_true ⟨by simp, fun t ht => newTriggers_new ht⟩ (.inl hmem)
  | none =>
    have hnone : run.id ∉ store.cases.map (·.matchRunId) := by
      simpa [List.find?_eq_none] using hfind
    simp only [List.mem_singleton, forall_eq, or_iff_right hnone]
    constructor
    · exact fun h => h.1.1
    · exact fun h => ⟨⟨h, hnone⟩, fun t ht => newTriggers_new ht⟩

end

section

variable {E : ReconcileEnv} {fresh : Uuid → FreshReview} {db db' : RiskDatabase} {run : HistoricalRun} {id : Uuid}

theorem SameRunRows.refl (id : Uuid) (db : RiskDatabase) : SameRunRows id db db :=
  ⟨rfl, rfl, rfl, rfl, fun _ _ => rfl, fun _ _ => rfl⟩

theorem SameRunRows.trans {db'' : RiskDatabase} (h : SameRunRows id db db') (h' : SameRunRows id db' db'') :
    SameRunRows id db db'' where
  run := h'.run.trans h.run
  features := h'.features.trans h.features
  assessments := h'.assessments.trans h.assessments
  cases := h'.cases.trans h.cases
  events := fun case hcase => (h'.events case (h.cases ▸ hcase)).trans (h.events case hcase)
  triggers := fun case hcase => (h'.triggers case (h.cases ▸ hcase)).trans (h.triggers case hcase)

theorem filter_append_of_none {α : Type} {p : α → Bool} {xs ys : List α} (h : ∀ y ∈ ys, p y = false) :
    (xs ++ ys).filter p = xs.filter p := by
  have hnil : ys.filter p = [] := List.filter_eq_nil_iff.2 fun y hy => by simp [h y hy]
  rw [List.filter_append, hnil, List.append_nil]

theorem filter_map_of_fixed {α : Type} {p : α → Bool} {f : α → α} (hp : ∀ x, p (f x) = p x)
    (hf : ∀ x, p x = true → f x = x) (xs : List α) : (xs.map f).filter p = xs.filter p := by
  induction xs with
  | nil => rfl
  | cons x xs ih =>
    rw [List.map_cons, List.filter_cons, List.filter_cons, hp, ih]
    split_ifs with hx
    · rw [hf x hx]
    · rfl

theorem sameRunRows_assessed {rows : RiskRows} {a : RiskAssessment} {created : Bool} {c : RiskCall}
    (hrun : c.run.id = run.id) (h : db.rows.ensure E.text E.similarity c = .ok (rows, a, created)) (hne : id ≠ run.id) :
    SameRunRows id db (db.assessed E run rows created) := by
  obtain ⟨hfeatures, hassessments⟩ := ensure_adds h
  refine ⟨?_, ?_, ?_, rfl, fun _ _ => rfl, fun _ _ => rfl⟩
  · simp only [RiskDatabase.assessed]
    split_ifs
    · refine filter_map_of_fixed (fun r => ?_) (fun r hr => ?_) _
      · split_ifs <;> rfl
      · exact if_neg fun heq => hne ((of_decide_eq_true hr).symm.trans heq)
    · rfl
  · simp only [RiskDatabase.assessed]
    rcases hfeatures with hsame | ⟨r, hr, happended⟩
    · rw [hsame]
    · rw [happended, filter_append_of_none]
      simpa [hr, hrun] using hne.symm
  · simp only [RiskDatabase.assessed]
    rcases hassessments with ⟨-, hsame⟩ | ⟨-, ha, happended⟩
    · rw [hsame]
    · rw [happended, filter_append_of_none]
      simpa [ha, hrun] using hne.symm

variable (E fresh db run) in
theorem review_cases (a : RiskAssessment) (created : Bool) :
    requiresReview run.unread (some a) = false ∧ db.review E fresh run a created = .done db created ∨
      requiresReview run.unread (some a) = true ∧ E.readResult run.resultJson = none ∧
        db.review E fresh run a created = .failed (some created) ∨
      requiresReview run.unread (some a) = true ∧ ∃ result, E.readResult run.resultJson = some result ∧
        ((¬ db.reviews.Accepts (ensureReviewCase E.builtins db.reviews (run.withResult result) (some a)
              (fresh run.id).caseId (fresh run.id).now) ∧
            db.review E fresh run a created = .raised .integrity) ∨
          db.reviews.Accepts (ensureReviewCase E.builtins db.reviews (run.withResult result) (some a)
              (fresh run.id).caseId (fresh run.id).now) ∧
            db.review E fresh run a created = .done { db with
              reviews := db.reviews.insert (ensureReviewCase E.builtins db.reviews (run.withResult result) (some a)
                (fresh run.id).caseId (fresh run.id).now) } created) := by
  unfold RiskDatabase.review
  by_cases hrequired : requiresReview run.unread (some a) = true
  · rw [if_pos hrequired]
    cases hread : E.readResult run.resultJson with
    | none => exact .inr (.inl ⟨hrequired, rfl, rfl⟩)
    | some result =>
      refine .inr (.inr ⟨hrequired, result, rfl, ?_⟩)
      by_cases haccepts : db.reviews.Accepts (ensureReviewCase E.builtins db.reviews (run.withResult result) (some a)
          (fresh run.id).caseId (fresh run.id).now)
      · exact .inr ⟨haccepts, if_pos haccepts⟩
      · exact .inl ⟨haccepts, if_neg haccepts⟩
  · rw [if_neg hrequired]
    exact .inl ⟨by simpa using hrequired, rfl⟩

theorem sameRunRows_insert {result : MatchResult} {a : RiskAssessment} (hcases : (db.reviews.cases.map (·.id)).Nodup)
    (haccepts : db.reviews.Accepts (ensureReviewCase E.builtins db.reviews (run.withResult result) (some a)
      (fresh run.id).caseId (fresh run.id).now)) (hne : id ≠ run.id) :
    SameRunRows id db { db with
      reviews := db.reviews.insert (ensureReviewCase E.builtins db.reviews (run.withResult result) (some a)
        (fresh run.id).caseId (fresh run.id).now) } := by
  obtain ⟨hown, hother⟩ := ensureReviewCase_own hcases haccepts
  have hcase : ∀ case ∈ db.reviews.cases.filter (·.matchRunId = id), case ∈ db.reviews.cases ∧ case.matchRunId ≠ run.id := by
    intro case hmem
    obtain ⟨hmem, hid⟩ := List.mem_filter.1 hmem
    exact ⟨hmem, fun heq => hne ((of_decide_eq_true hid).symm.trans heq)⟩
  refine ⟨rfl, rfl, rfl, ?_, fun case hmem => ?_, fun case hmem => ?_⟩
  · refine filter_append_of_none fun c hc => decide_eq_false ?_
    rw [hown c hc]
    exact hne.symm
  · refine filter_append_of_none fun e he => decide_eq_false ?_
    exact (hother case (hcase case hmem).1 (hcase case hmem).2).1 e he
  · refine filter_append_of_none fun t ht => decide_eq_false ?_
    exact (hother case (hcase case hmem).1 (hcase case hmem).2).2 t ht

theorem nodup_insert {rows : EnsuredReview} {run : MatchRun} {risk : Option RiskAssessment} {caseId : Uuid} {now : DateTime}
    {B : Builtins} {store : ReviewStore} (hrows : rows = ensureReviewCase B store run risk caseId now)
    (haccepts : store.Accepts rows) (hids : (store.cases.map (·.id)).Nodup) :
    ((store.insert rows).cases.map (·.id)).Nodup := by
  rcases ensureReviewCase_cases B store run risk caseId now with ⟨hnone, -⟩ | ⟨-, hopened, -⟩
  · rw [← hrows] at hnone
    simpa [ReviewStore.insert, hnone] using hids
  · rw [← hrows] at hopened
    have hnew := (haccepts.1 _ (hopened ▸ List.mem_singleton.2 rfl)).1
    simp only [ReviewStore.insert, hopened, List.map_append]
    refine List.nodup_append.2 ⟨hids, by simp, fun x hx y hy heq => hnew ?_⟩
    obtain rfl := List.mem_singleton.1 hy
    exact heq ▸ hx

variable (E fresh) in
/-- What a steady run does: it has no source and nothing changes, or its assessment and its review are stored. -/
inductive SteadyTurn (db : RiskDatabase) (run : HistoricalRun) : Prop
  | unreadable : db.turn E fresh run = .failed none → SteadyTurn db run
  | stored {db' : RiskDatabase} {created : Bool} : db.turn E fresh run = .done db' created →
      db'.rows.assessments.length = db.rows.assessments.length + (if created then 1 else 0) →
      (∀ id, id ≠ run.id → SameRunRows id db db') → db'.Sound → SteadyTurn db run

theorem sound_assessed {rows : RiskRows} {a : RiskAssessment} {created : Bool} {c : RiskCall} (hsound : db.Sound)
    (h : db.rows.ensure E.text E.similarity c = .ok (rows, a, created)) : (db.assessed E run rows created).Sound := by
  have hright : (db.rows.next E.text E.similarity c).Right := hsound.rows.next
  rw [RiskRows.next, h] at hright
  refine ⟨?_, hright, hsound.cases⟩
  have hids : (db.assessed E run rows created).runs.map (·.id) = db.runs.map (·.id) := by
    simp only [RiskDatabase.assessed]
    split_ifs
    · rw [List.map_map]
      refine List.map_congr_left fun r _ => ?_
      simp only [Function.comp_apply]
      split_ifs <;> rfl
    · rfl
  rw [hids]
  exact hsound.runs

theorem SteadyTurn.of_done {source : PurchaseOrder × Invoice} {rows : RiskRows} {a : RiskAssessment} {created : Bool}
    (hsound : db.Sound) (hsource : db.source E run = some source)
    (hensure : db.rows.ensure E.text E.similarity (E.call fresh run source) = .ok (rows, a, created))
    {db' : RiskDatabase} {counted : Bool}
    (hdone : (db.assessed E run rows created).review E fresh run a created = .done db' counted) :
    SteadyTurn E fresh db run := by
  have hturn : db.turn E fresh run = .done db' counted := by
    simp only [RiskDatabase.turn, hsource, hensure, hdone]
  have hassessed : (db.assessed E run rows created).Sound := sound_assessed hsound hensure
  have hcount : rows.assessments.length = db.rows.assessments.length + (if created then 1 else 0) := by
    obtain ⟨-, ⟨rfl, hsame⟩ | ⟨rfl, -, happended⟩⟩ := ensure_adds hensure
    · rw [hsame]
      rfl
    · rw [happended, List.length_append]
      rfl
  have hsame : ∀ id, id ≠ run.id → SameRunRows id db (db.assessed E run rows created) :=
    fun id hne => sameRunRows_assessed rfl hensure hne
  rcases review_cases E fresh (db.assessed E run rows created) run a created with ⟨-, hreview⟩ | ⟨-, -, hreview⟩ |
    ⟨-, result, -, ⟨-, hreview⟩ | ⟨haccepts, hreview⟩⟩
  · rw [hreview] at hdone
    cases hdone
    exact .stored hturn hcount hsame hassessed
  · rw [hreview] at hdone
    cases hdone
  · rw [hreview] at hdone
    cases hdone
  · rw [hreview] at hdone
    cases hdone
    refine .stored hturn hcount (fun id hne => (hsame id hne).trans ?_) ?_
    · exact sameRunRows_insert hassessed.cases haccepts hne
    · exact ⟨hassessed.runs, hassessed.rows, nodup_insert rfl haccepts hassessed.cases⟩

theorem SteadyTurn.of_steady (hsound : db.Sound) (h : db.Steady E fresh run) : SteadyTurn E fresh db run := by
  cases hsource : db.source E run with
  | none => exact .unreadable (by simp only [RiskDatabase.turn, hsource])
  | some source =>
    obtain ⟨hfits, hwindow, hreview⟩ := h source hsource
    rcases hsound.rows.ensure_cases E.text E.similarity (E.call fresh run source) with
      ⟨-, hnone, hnot⟩ | ⟨⟨⟨rows, a, created⟩, hensure⟩, -⟩ | ⟨-, hnot⟩
    · exact absurd hfits (not_or.2 ⟨hnone, hnot⟩)
    · have hreview := hreview _ hensure
      rcases review_cases E fresh (db.assessed E run rows created) run a created with ⟨-, hdone⟩ | ⟨hrequired, hread, -⟩ |
        ⟨hrequired, result, -, ⟨hrefused, -⟩ | ⟨-, hdone⟩⟩
      · exact .of_done hsound hsource hensure hdone
      · have hreadable := (hreview hrequired).1
        rw [hread] at hreadable
        cases hreadable
      · have hresult : requiresReview (run.withResult result) (some a) = true := hrequired
        exact absurd ((accepts_iff hresult).2 (hreview hrequired).2) hrefused
      · exact .of_done hsound hsource hensure hdone
    · exact absurd (hwindow.imp_right .inr) hnot

theorem turn_of_not_steady (hsound : db.Sound) (h : ¬ db.Steady E fresh run) :
    (∃ e, db.turn E fresh run = .raised e) ∨ ∃ created, db.turn E fresh run = .failed (some created) := by
  rw [RiskDatabase.Steady] at h
  push Not at h
  obtain ⟨source, hsource, h⟩ := h
  rcases hsound.rows.ensure_cases E.text E.similarity (E.call fresh run source) with
    ⟨hdata, -⟩ | ⟨⟨⟨rows, a, created⟩, hensure⟩, hfits, hwindow⟩ | ⟨hoverflow, -⟩
  · exact .inl ⟨.risk .dataError, by simp only [RiskDatabase.turn, hsource, hdata]⟩
  · obtain ⟨r, hr, hrequired, h⟩ := h hfits hwindow
    obtain rfl := Except.ok.inj (hensure.symm.trans hr)
    have hturn : db.turn E fresh run = (db.assessed E run rows created).review E fresh run a created := by
      simp only [RiskDatabase.turn, hsource, hensure]
    rw [hturn]
    rcases review_cases E fresh (db.assessed E run rows created) run a created with ⟨hnot, -⟩ | ⟨-, -, hfailed⟩ |
      ⟨-, result, hread, ⟨-, hraised⟩ | ⟨haccepts, -⟩⟩
    · rw [hnot] at hrequired
      cases hrequired
    · exact .inr ⟨created, hfailed⟩
    · exact .inl ⟨_, hraised⟩
    · have hrefused := h (by rw [hread]; rfl)
      have hresult : requiresReview (run.withResult result) (some a) = true := hrequired
      exact absurd ((accepts_iff hresult).1 haccepts) (not_or.2 ⟨hrefused.1, not_not.2 hrefused.2⟩)
  · exact .inl ⟨.risk .overflow, by simp only [RiskDatabase.turn, hsource, hoverflow]⟩

theorem total_count (t : Tally) (created : Bool) : (t.count created).total = t.total + 1 := by
  unfold Tally.count Tally.total
  split_ifs
  · simp only
    omega
  · simp only
    omega

theorem total_fail (t : Tally) (id : Uuid) : (t.fail id).total = t.total + 1 := by
  simp only [Tally.fail, Tally.total, List.length_append, List.length_singleton]
  omega

theorem total_le_of_fold {runs : List HistoricalRun} {t t' : Tally}
    (h : runs.foldlM (reconcileStep E fresh) (db, t) = .ok (db', t')) : t.total + runs.length ≤ t'.total := by
  induction runs generalizing db t with
  | nil =>
    cases h
    simp
  | cons run runs ih =>
    rw [List.foldlM_cons] at h
    cases hstep : reconcileStep E fresh (db, t) run with
    | error e =>
      rw [hstep] at h
      cases h
    | ok s =>
      rw [hstep] at h
      have hrest := ih h
      have hone : t.total + 1 ≤ s.2.total := by
        unfold reconcileStep at hstep
        split at hstep
        · cases hstep
          rw [total_count]
        · cases hstep
          rw [total_fail]
        · cases hstep
          simp only [total_fail, total_count]
          omega
        · cases hstep
      rw [List.length_cons]
      omega

/-- When every run meets the condition, the loop returns and counts each once; the rows of the failed runs and of all
other runs are kept. -/
theorem fold_of_steady {runs : List HistoricalRun} (hids : (runs.map (·.id)).Nodup) (hsound : db.Sound)
    (h : AllSteady E fresh runs db) (t : Tally) :
    ∃ db' t', runs.foldlM (reconcileStep E fresh) (db, t) = .ok (db', t') ∧ t'.total = t.total + runs.length ∧
      db'.rows.assessments.length + t.created = db.rows.assessments.length + t'.created ∧
      (∃ failed, t'.failed = t.failed ++ failed ∧ ∀ id ∈ failed, id ∈ runs.map (·.id) ∧ SameRunRows id db db') ∧
      ∀ id, id ∉ runs.map (·.id) → SameRunRows id db db' := by
  induction runs generalizing db t with
  | nil => exact ⟨db, t, rfl, rfl, rfl, ⟨[], by simp, by simp⟩, fun id _ => .refl id db⟩
  | cons run runs ih =>
    rw [List.map_cons, List.nodup_cons] at hids
    obtain ⟨hsteady, hrest⟩ := h
    cases SteadyTurn.of_steady hsound hsteady with
    | unreadable hturn =>
      rw [hturn] at hrest
      obtain ⟨db', t', hfold, htotal, hassessments, ⟨failed, hfailed, hkept⟩, hothers⟩ :=
        ih hids.2 hsound hrest (t.fail run.id)
      refine ⟨db', t', ?_, ?_, hassessments, ⟨run.id :: failed, ?_, ?_⟩, ?_⟩
      · rw [List.foldlM_cons, reconcileStep, hturn]
        exact hfold
      · rw [htotal, total_fail, List.length_cons]
        omega
      · rw [hfailed]
        simp [Tally.fail]
      · intro id hid
        rcases List.mem_cons.1 hid with rfl | hid
        · exact ⟨List.mem_cons_self, hothers _ hids.1⟩
        · exact ⟨List.mem_cons_of_mem _ (hkept id hid).1, (hkept id hid).2⟩
      · intro id hid
        exact hothers id fun hmem => hid (List.mem_cons_of_mem _ hmem)
    | @stored db₁ created hturn hcount hsame hsound₁ =>
      rw [hturn] at hrest
      obtain ⟨db', t', hfold, htotal, hassessments, ⟨failed, hfailed, hkept⟩, hothers⟩ :=
        ih hids.2 hsound₁ hrest (t.count created)
      have hcreated : (t.count created).created = t.created + (if created then 1 else 0) := by
        cases created <;> rfl
      refine ⟨db', t', ?_, ?_, ?_, ⟨failed, ?_, ?_⟩, ?_⟩
      · rw [List.foldlM_cons, reconcileStep, hturn]
        exact hfold
      · rw [htotal, total_count, List.length_cons]
        omega
      · omega
      · rw [hfailed]
        cases created <;> rfl
      · intro id hid
        obtain ⟨hmem, hrows⟩ := hkept id hid
        have hne : id ≠ run.id := fun heq => hids.1 (heq ▸ hmem)
        exact ⟨List.mem_cons_of_mem _ hmem, (hsame id hne).trans hrows⟩
      · intro id hid
        have hne : id ≠ run.id := fun heq => hid (heq ▸ List.mem_cons_self)
        exact (hsame id hne).trans (hothers id fun hmem => hid (List.mem_cons_of_mem _ hmem))

theorem steady_of_fold {runs : List HistoricalRun} (hsound : db.Sound) {t t' : Tally}
    (h : runs.foldlM (reconcileStep E fresh) (db, t) = .ok (db', t')) (htotal : t'.total = t.total + runs.length) :
    AllSteady E fresh runs db := by
  induction runs generalizing db t with
  | nil => trivial
  | cons run runs ih =>
    rw [List.length_cons] at htotal
    rw [List.foldlM_cons] at h
    by_cases hsteady : db.Steady E fresh run
    · refine ⟨hsteady, ?_⟩
      cases SteadyTurn.of_steady hsound hsteady with
      | unreadable hturn =>
        rw [reconcileStep, hturn] at h
        rw [hturn]
        refine ih hsound h ?_
        simp only [total_fail]
        omega
      | @stored db₁ created hturn hcount hsame hsound₁ =>
        rw [reconcileStep, hturn] at h
        rw [hturn]
        refine ih hsound₁ h ?_
        simp only [total_count]
        omega
    · rcases turn_of_not_steady hsound hsteady with ⟨e, hturn⟩ | ⟨created, hturn⟩
      · rw [reconcileStep, hturn] at h
        cases h
      · rw [reconcileStep, hturn] at h
        have hle := total_le_of_fold h
        simp only [total_fail, total_count] at hle
        omega

end

def absentField (α : Type) : ExtractedField α where
  value := none
  status := .missing
  evidence := []
  ruleId := none
  extracted_contract := ExtractedField.missing_extracted α
  missing_contract := ExtractedField.missing_missing α

def absentJson : Json := .obj [("value", .null), ("status", .str "missing"), ("evidence", .arr []), ("rule_id", .null)]

/-- An invoice on which nothing was found, and its dump. -/
def blankInvoice : Invoice where
  extractionIssues := []
  invoiceNumber := absentField String
  invoiceDate := absentField Date
  currency := absentField String
  subtotal := absentField Decimal
  tax := absentField Decimal
  total := absentField Decimal
  lineItems := []

def blankInvoiceJson : List (String × Json) :=
  [("invoice_number", absentJson), ("invoice_date", absentJson), ("currency", absentJson), ("subtotal", absentJson),
    ("tax", absentJson), ("total", absentJson), ("line_items", .arr [])]

/-- The schema of invoices, on objects with the fields of the blank one. -/
def readBlankInvoice : Json → Option Invoice
  | .obj fields => if fields.map Prod.fst = blankInvoiceJson.map Prod.fst then some blankInvoice else none
  | _ => none

/-- The invoice can be read, a result that is null cannot. -/
def blankEnv : ReconcileEnv where
  text := asciiTextOps.toUnicode
  similarity := oneOfThirteen
  policy := .default
  builtins := byteChars
  readInvoice := readBlankInvoice
  readResult := fun _ => none

/-- A historical run that asks for a review and has lost its result. -/
def nullResultRun : HistoricalRun where
  id := Uuid.ofNat 2
  documentId := Uuid.ofNat 3
  purchaseOrderId := tapPurchase.id
  extractionRunId := Uuid.ofNat 5
  policyVersion := "matching-v1"
  matchingMode := .twoWay
  matchingContextFingerprint := ""
  riskPolicyVersion := ""
  decision := .needsReview
  resultJson := .null

def nullResultDatabase : RiskDatabase where
  runs := [nullResultRun]
  extractions := [⟨Uuid.ofNat 5, some (.obj blankInvoiceJson)⟩]
  purchaseOrders := [tapPurchase]
  rows := .empty
  reviews := .empty

def blankFresh : Uuid → FreshReview := fun _ => ⟨Uuid.ofNat 7, Uuid.ofNat 8, .first⟩

theorem sound_nullResultDatabase : nullResultDatabase.Sound := by
  refine ⟨List.nodup_singleton _, ?_, List.nodup_nil⟩
  intro r hr
  cases hr

def keptEnv : ReconcileEnv :=
  { blankEnv with
    readResult := fun json =>
      match json with
      | .null => none
      | _ => some ⟨.needsReview, ⟨0, 1, 0, 0, 0⟩, [], [], []⟩ }

/-- The same run, with its result. -/
def keptResultDatabase : RiskDatabase := { nullResultDatabase with runs := [{ nullResultRun with resultJson := .obj [] }] }

theorem reconciles_keptResult : Reconciles keptEnv blankFresh keptResultDatabase := by
  have hrun : (keptResultDatabase.reconcile keptEnv blankFresh).toOption.map
      (fun s => (s.2.created, s.2.reused, s.2.failed, s.1.rows.assessments.length)) = some (1, 0, [], 1) := by
    decide +kernel
  obtain ⟨⟨db, t⟩, hok, hcounts⟩ := Option.map_eq_some_iff.1 hrun
  obtain ⟨hcreated, hreused, hfailed, hassessments⟩ :
      t.created = 1 ∧ t.reused = 0 ∧ t.failed = [] ∧ db.rows.assessments.length = 1 := by
    simpa using hcounts
  refine ⟨db, t, StateMachine.eq_ok_of_toOption hok, ?_, ?_, ?_⟩
  · rw [hcreated, hreused, hfailed]
    rfl
  · rw [hcreated, hassessments]
    rfl
  · rw [hfailed]
    exact fun id hid => absurd hid List.not_mem_nil

end InvoiceOps
