import InvoiceOps.Matching.Snapshot

/-! `MatchingService.match` as one call on the tables, from its first query to its result. `callMatch_steps`
connects it with the transactions of the machine: a call is a run of one transaction that nobody interrupts. -/

namespace InvoiceOps

open Calendar StateMachine

inductive MatchError
  | purchaseOrderNotFound
  | extractionNotReady
  | contextLookup
  | riskWindow
  | riskAssessmentNotFound
  | integrity
deriving DecidableEq, Repr

/-- The ids and the time a call makes up. -/
structure FreshIds where
  runId : Uuid
  allocationIds : ℕ → Uuid
  assessmentId : Uuid
  caseId : Uuid
  now : DateTime

/-- `MatchServiceResult`, with the tables after the call. -/
structure MatchServiceResult where
  run : MatchRun
  created : Bool
  tables : Tables

section

variable (E : MatchingEnv) (db : Tables) (fresh : FreshIds)

def MatchingEnv.runRows (run : MatchRun) (b : Option BuiltContext) (allocations : List ThreeWayAllocation)
    (risk : List RiskFeatureRecord × List RiskAssessment × RiskAssessment) : NewRows where
  runs := [run]
  contexts := (b.map (contextRow run)).toList
  allocations := allocations
  features := risk.1
  assessments := risk.2.1
  review := ensureReviewCase E.builtins db.reviews run (some risk.2.2) fresh.caseId fresh.now

def MatchingEnv.repairRows (run : MatchRun)
    (risk : List RiskFeatureRecord × List RiskAssessment × RiskAssessment) : NewRows where
  runs := []
  contexts := []
  allocations := []
  features := risk.1
  assessments := risk.2.1
  review := ensureReviewCase E.builtins db.reviews run (some risk.2.2) fresh.caseId fresh.now

/-- After a violated key: another retry may have repaired the run. -/
def repairedElsewhere (run : MatchRun) : Except MatchError Tables :=
  match db.assessments.find? fun a => a.matchRunId = run.id ∧ a.policyVersion = run.riskPolicyVersion with
  | none => .error .riskAssessmentNotFound
  | some a =>
    if requiresReview run (some a) ∧ db.reviews.cases.find? (·.matchRunId = run.id) = none then .error .integrity
    else .ok db

/-- `_ensure_case_for_existing`. -/
def MatchingEnv.ensureCaseForExisting (run : MatchRun) : Except MatchError Tables :=
  match db.extractions.find? (·.id = run.extractionRunId), db.purchaseOrder run.purchaseOrderId with
  | some x, some po =>
    match E.ensureRisk db run po x.invoice fresh.assessmentId with
    | none => .error .riskWindow
    | some risk =>
      if db.Accepts (E.repairRows db fresh run risk) then .ok (db.insert (E.repairRows db fresh run risk))
      else repairedElsewhere db run
  | _, _ => .error .extractionNotReady

/-- A run that is there is returned once it has all its rows. -/
def MatchingEnv.replay (run : MatchRun) : Except MatchError MatchServiceResult :=
  (E.ensureCaseForExisting db fresh run).map fun db' => ⟨run, false, db'⟩

/-- After a violated key: the run of a concurrent match with the same key. -/
def MatchingEnv.recover (key : MatchKey) : Except MatchError MatchServiceResult :=
  match db.findExisting key with
  | some run => E.replay db fresh run
  | none => .error .integrity

/-- The context of a call; a two-way match has none. -/
def MatchingEnv.contextFor (c : MatchCall) : Option BuiltContext :=
  match c.mode with
  | .threeWay => some (db.contextOf E c)
  | .twoWay => none

/-- The run a call finds: one with the same replay fingerprint, or one with the same key. -/
def MatchingEnv.findRun (c : MatchCall) (x : ExtractionRun) : Option MatchRun :=
  ((E.contextFor db c).bind fun b => db.findPrior (E.key c x (E.contextFor db c)) b.replayFingerprint).or
    (db.findExisting (E.key c x (E.contextFor db c)))

/-- A call that finds no run decides, and commits the run with its rows. -/
def MatchingEnv.createRun (c : MatchCall) (x : ExtractionRun) : Except MatchError MatchServiceResult :=
  match E.decision c x (E.contextFor db c) (db.ownAllocations c.documentId c.purchaseOrder.id) with
  | none => .error .contextLookup
  | some found =>
    let run := E.newRun c x (E.contextFor db c) fresh.runId found.1
    match newAllocations run fresh.allocationIds found.2 with
    | none => E.recover db fresh run.key
    | some allocations =>
      match E.ensureRisk db run c.purchaseOrder x.invoice fresh.assessmentId with
      | none => .error .riskWindow
      | some risk =>
        if db.Accepts (E.runRows db fresh run (E.contextFor db c) allocations risk) then
          .ok ⟨run, true, db.insert (E.runRows db fresh run (E.contextFor db c) allocations risk)⟩
        else E.recover db fresh run.key

/-- `MatchingService.match`. -/
def MatchingEnv.callMatch (documentId purchaseOrderId : Uuid) (mode : MatchingMode) :
    Except MatchError MatchServiceResult :=
  match db.purchaseOrder purchaseOrderId with
  | none => .error .purchaseOrderNotFound
  | some po =>
    match db.currentExtraction documentId with
    | none => .error .extractionNotReady
    | some x =>
      match E.findRun db ⟨documentId, po, mode⟩ x with
      | some run => E.replay db fresh run
      | none => E.createRun db fresh ⟨documentId, po, mode⟩ x

end

section

variable {E : MatchingEnv} {w : MatchWorld} {i : ℕ} {fresh : FreshIds}

@[simp] theorem txns_enter (w : MatchWorld) (i : ℕ) (p : TxnPhase) : (w.enter i p).txns i = some p :=
  Function.update_self ..

@[simp] theorem db_enter (w : MatchWorld) (i : ℕ) (p : TxnPhase) : (w.enter i p).db = w.db := rfl

@[simp] theorem enter_enter (w : MatchWorld) (i : ℕ) (p q : TxnPhase) : (w.enter i p).enter i q = w.enter i q := by
  simp [MatchWorld.enter]

/-- The world after the transaction of `i` has ended. -/
def MatchWorld.ended (w : MatchWorld) (i : ℕ) (db : Tables) : MatchWorld := { w.finish i with db := db }

@[simp] theorem ended_enter (w : MatchWorld) (i : ℕ) (p : TxnPhase) (db : Tables) :
    (w.enter i p).ended i db = w.ended i db := by
  have htxns : Function.update (Function.update w.txns i (some p)) i none = Function.update w.txns i none :=
    Function.update_idem ..
  exact congrArg (fun txns => (⟨db, (w.release i).locks, txns⟩ : MatchWorld)) htxns

@[simp] theorem ended_release (w : MatchWorld) (i : ℕ) (db : Tables) : (w.release i).ended i db = w.ended i db := by
  have hlocks : ((w.release i).release i).locks = (w.release i).locks := by
    funext p
    simp only [MatchWorld.release]
    split_ifs <;> simp_all
  exact congrArg (fun locks => (⟨db, locks, Function.update w.txns i none⟩ : MatchWorld)) hlocks

@[simp] theorem release_enter (w : MatchWorld) (i : ℕ) (p q : TxnPhase) :
    ((w.enter i p).release i).enter i q = (w.release i).enter i q := by
  have htxns : Function.update (Function.update w.txns i (some p)) i (some q) = Function.update w.txns i (some q) :=
    Function.update_idem ..
  exact congrArg (fun txns => (⟨w.db, (w.release i).locks, txns⟩ : MatchWorld)) htxns

theorem commit_steps {key : Option MatchKey} {visible : List RiskFeatureRecord} {rows : NewRows}
    (haccepts : w.db.Accepts rows) : Steps (MatchWorld.next E) (w.enter i (.ready key visible rows)) [.commit i]
      (w.ended i (w.db.insert rows)) := by
  have hcommit : (w.enter i (.ready key visible rows)).commitRows i key rows =
      (w.enter i (.ready key visible rows)).ended i (w.db.insert rows) := if_pos haccepts
  refine .single ?_
  simp only [MatchWorld.next, txns_enter, hcommit, ended_enter]

theorem rolledBack_steps {key : MatchKey} {visible : List RiskFeatureRecord} {rows : NewRows}
    (hrefuses : ¬ w.db.Accepts rows) : Steps (MatchWorld.next E) (w.enter i (.ready (some key) visible rows))
      [.commit i] ((w.release i).enter i (.recovering key)) := by
  have hcommit : (w.enter i (.ready (some key) visible rows)).commitRows i (some key) rows =
      ((w.enter i (.ready (some key) visible rows)).release i).enter i (.recovering key) := if_neg hrefuses
  refine .single ?_
  simp only [MatchWorld.next, txns_enter, hcommit, release_enter]

theorem refused_steps {visible : List RiskFeatureRecord} {rows : NewRows} (hrefuses : ¬ w.db.Accepts rows) :
    Steps (MatchWorld.next E) (w.enter i (.ready none visible rows)) [.commit i] (w.ended i w.db) := by
  have hcommit : (w.enter i (.ready none visible rows)).commitRows i none rows =
      (w.enter i (.ready none visible rows)).ended i w.db := if_neg hrefuses
  refine .single ?_
  simp only [MatchWorld.next, txns_enter, hcommit, ended_enter]

theorem repairedElsewhere_ok {db db' : Tables} {run : MatchRun} (h : repairedElsewhere db run = .ok db') : db' = db := by
  unfold repairedElsewhere at h
  split at h
  · cases h
  · split_ifs at h
    exact (Except.ok.inj h).symm

/-- What a replay does: it adds the rows of a repair, or they are refused and it adds nothing. -/
theorem replay_cases {db : Tables} {run : MatchRun} {r : MatchServiceResult} (h : E.replay db fresh run = .ok r) :
    r.run = run ∧ r.created = false ∧ ∃ x po risk, db.extractions.find? (·.id = run.extractionRunId) = some x ∧
      db.purchaseOrder run.purchaseOrderId = some po ∧
      E.ensureRisk db run po x.invoice fresh.assessmentId = some risk ∧
      (db.Accepts (E.repairRows db fresh run risk) ∧ r.tables = db.insert (E.repairRows db fresh run risk) ∨
        ¬ db.Accepts (E.repairRows db fresh run risk) ∧ r.tables = db) := by
  unfold MatchingEnv.replay at h
  cases hensure : E.ensureCaseForExisting db fresh run with
  | error e =>
    rw [hensure] at h
    cases h
  | ok db' =>
    rw [hensure] at h
    obtain rfl := Except.ok.inj h
    refine ⟨rfl, rfl, ?_⟩
    unfold MatchingEnv.ensureCaseForExisting at hensure
    split at hensure
    · next x po hx hpo =>
      split at hensure
      · cases hensure
      · next risk hrisk =>
        split_ifs at hensure with haccepts
        · exact ⟨x, po, risk, hx, hpo, hrisk, .inl ⟨haccepts, (Except.ok.inj hensure).symm⟩⟩
        · exact ⟨x, po, risk, hx, hpo, hrisk, .inr ⟨haccepts, repairedElsewhere_ok hensure⟩⟩
    · cases hensure

/-- A replay of the transaction of `i`, from the run it has found. -/
theorem replay_steps {run : MatchRun} {r : MatchServiceResult} (h : E.replay w.db fresh run = .ok r) :
    ∃ acts, Steps (MatchWorld.next E) (w.enter i (.replaying run)) acts (w.ended i r.tables) := by
  obtain ⟨-, -, x, po, risk, hx, hpo, hrisk, htables⟩ := replay_cases h
  have hrepair : (w.enter i (.replaying run)).next E (.repair i fresh.assessmentId fresh.caseId fresh.now) =
      some (w.enter i (.ready none w.db.features (E.repairRows w.db fresh run risk))) := by
    simp only [MatchWorld.next, txns_enter, MatchWorld.repair, db_enter, hx, hpo, hrisk, enter_enter]
    rfl
  rcases htables with ⟨haccepts, htables⟩ | ⟨hrefuses, htables⟩
  · rw [htables]
    exact ⟨_, (Steps.single hrepair).trans (commit_steps haccepts)⟩
  · rw [htables]
    exact ⟨_, (Steps.single hrepair).trans (refused_steps hrefuses)⟩

/-- What a call that finds no run does: it commits a new run, or it is rolled back and finds one by its key. -/
theorem createRun_cases {db : Tables} {c : MatchCall} {x : ExtractionRun} {r : MatchServiceResult}
    (h : E.createRun db fresh c x = .ok r) :
    ∃ found, E.decision c x (E.contextFor db c) (db.ownAllocations c.documentId c.purchaseOrder.id) = some found ∧
      ((∃ allocations risk,
          newAllocations (E.newRun c x (E.contextFor db c) fresh.runId found.1) fresh.allocationIds found.2 =
            some allocations ∧
          E.ensureRisk db (E.newRun c x (E.contextFor db c) fresh.runId found.1) c.purchaseOrder x.invoice
            fresh.assessmentId = some risk ∧
          db.Accepts (E.runRows db fresh (E.newRun c x (E.contextFor db c) fresh.runId found.1) (E.contextFor db c)
            allocations risk) ∧
          r = ⟨E.newRun c x (E.contextFor db c) fresh.runId found.1, true,
            db.insert (E.runRows db fresh (E.newRun c x (E.contextFor db c) fresh.runId found.1)
              (E.contextFor db c) allocations risk)⟩) ∨
        (newAllocations (E.newRun c x (E.contextFor db c) fresh.runId found.1) fresh.allocationIds found.2 = none ∨
          ∃ allocations risk,
            newAllocations (E.newRun c x (E.contextFor db c) fresh.runId found.1) fresh.allocationIds found.2 =
              some allocations ∧
            E.ensureRisk db (E.newRun c x (E.contextFor db c) fresh.runId found.1) c.purchaseOrder x.invoice
              fresh.assessmentId = some risk ∧
            ¬ db.Accepts (E.runRows db fresh (E.newRun c x (E.contextFor db c) fresh.runId found.1)
              (E.contextFor db c) allocations risk)) ∧
          ∃ run, db.findExisting (E.key c x (E.contextFor db c)) = some run ∧ E.replay db fresh run = .ok r) := by
  have hrecover : ∀ {key}, E.recover db fresh key = .ok r →
      ∃ run, db.findExisting key = some run ∧ E.replay db fresh run = .ok r := by
    intro key hr
    unfold MatchingEnv.recover at hr
    split at hr
    · next run hrun => exact ⟨run, hrun, hr⟩
    · cases hr
  unfold MatchingEnv.createRun at h
  split at h
  · cases h
  · next found hfound =>
    refine ⟨found, hfound, ?_⟩
    dsimp only at h
    split at h
    · next hnone => exact .inr ⟨.inl hnone, hrecover h⟩
    · next allocations hallocations =>
      split at h
      · cases h
      · next risk hrisk =>
        split_ifs at h with haccepts
        · exact .inl ⟨allocations, risk, hallocations, hrisk, haccepts, (Except.ok.inj h).symm⟩
        · exact .inr ⟨.inr ⟨allocations, risk, hallocations, hrisk, haccepts⟩, hrecover h⟩

theorem recover_steps {key : MatchKey} {run : MatchRun} {r : MatchServiceResult}
    (hrun : w.db.findExisting key = some run) (h : E.replay w.db fresh run = .ok r) :
    ∃ acts, Steps (MatchWorld.next E) ((w.release i).enter i (.recovering key)) acts (w.ended i r.tables) := by
  have hfound : (w.release i).db.findExisting key = some run := hrun
  have hrecover : ((w.release i).enter i (.recovering key)).next E (.recover i) =
      some ((w.release i).enter i (.replaying run)) := by
    simp only [MatchWorld.next, txns_enter, db_enter, hfound, enter_enter]
  obtain ⟨acts, hreplay⟩ := replay_steps (w := w.release i) (i := i) h
  rw [ended_release] at hreplay
  exact ⟨_, (Steps.single hrecover).trans hreplay⟩

theorem createRun_steps {c : MatchCall} {x : ExtractionRun} {r : MatchServiceResult}
    (h : E.createRun w.db fresh c x = .ok r) :
    ∃ acts, Steps (MatchWorld.next E) (w.enter i (.absent c x (E.contextFor w.db c))) acts (w.ended i r.tables) := by
  obtain ⟨found, hfound, hcases⟩ := createRun_cases h
  generalize E.contextFor w.db c = b at hfound hcases ⊢
  generalize hrun : E.newRun c x b fresh.runId found.1 = run at hcases
  have hdecide : (w.enter i (.absent c x b)).next E (.decide i fresh.runId) =
      some (w.enter i (.decided c x b run found.2)) := by
    simp only [MatchWorld.next, txns_enter, db_enter, hfound, hrun, enter_enter]
  have hassess : (w.enter i (.decided c x b run found.2)).next E
      (.assess i fresh.allocationIds fresh.assessmentId fresh.caseId fresh.now) =
      some ((w.enter i (.decided c x b run found.2)).assess E i c x b run found.2 fresh.allocationIds
        fresh.assessmentId fresh.caseId fresh.now) := by
    simp only [MatchWorld.next, txns_enter]
  have hkey : run.key = E.key c x b := hrun ▸ rfl
  rcases hcases with ⟨allocations, risk, hallocations, hrisk, haccepts, rfl⟩ | ⟨hrolled, run', hfound', hreplay⟩
  · simp only [MatchWorld.assess, hallocations, db_enter, hrisk, enter_enter] at hassess
    exact ⟨_, ((Steps.single hdecide).trans (.single hassess)).trans (commit_steps haccepts)⟩
  · rw [← hkey] at hfound'
    obtain ⟨acts, hrecover⟩ := recover_steps (i := i) hfound' hreplay
    rcases hrolled with hnone | ⟨allocations, risk, hallocations, hrisk, hrefuses⟩
    · simp only [MatchWorld.assess, hnone, release_enter] at hassess
      exact ⟨_, ((Steps.single hdecide).trans (.single hassess)).trans hrecover⟩
    · simp only [MatchWorld.assess, hallocations, db_enter, hrisk, enter_enter] at hassess
      exact ⟨_, ((Steps.single hdecide).trans (.single hassess)).trans ((rolledBack_steps hrefuses).trans hrecover)⟩

theorem findRun_steps {c : MatchCall} {x : ExtractionRun} {r : MatchServiceResult}
    (h : (match E.findRun w.db c x with
      | some run => E.replay w.db fresh run
      | none => E.createRun w.db fresh c x) = .ok r) :
    ∃ acts, Steps (MatchWorld.next E) (w.enter i (.extracted c x)) acts (w.ended i r.tables) := by
  have hfound : ∀ run, E.findRun w.db c x = some run →
      ∃ acts, Steps (MatchWorld.next E) (w.enter i (.replaying run)) acts (w.ended i r.tables) := by
    intro run hrun
    rw [hrun] at h
    exact replay_steps h
  have habsent : E.findRun w.db c x = none → ∃ acts,
      Steps (MatchWorld.next E) (w.enter i (.absent c x (E.contextFor w.db c))) acts (w.ended i r.tables) := by
    intro hnone
    rw [hnone] at h
    exact createRun_steps h
  obtain ⟨documentId, po, mode⟩ := c
  cases mode with
  | twoWay =>
    cases hexisting : w.db.findExisting (E.key ⟨documentId, po, .twoWay⟩ x none) with
    | some run =>
      have hsearch : (w.enter i (.extracted ⟨documentId, po, .twoWay⟩ x)).next E (.searchExisting i) =
          some (w.enter i (.replaying run)) := by
        simp [MatchWorld.next, MatchWorld.searchExisting, hexisting]
      obtain ⟨acts, hrest⟩ := hfound run (by simp [MatchingEnv.findRun, MatchingEnv.contextFor, hexisting])
      exact ⟨_, (Steps.single hsearch).trans hrest⟩
    | none =>
      have hsearch : (w.enter i (.extracted ⟨documentId, po, .twoWay⟩ x)).next E (.searchExisting i) =
          some (w.enter i (.absent ⟨documentId, po, .twoWay⟩ x none)) := by
        simp [MatchWorld.next, MatchWorld.searchExisting, hexisting]
      obtain ⟨acts, hrest⟩ := habsent (by simp [MatchingEnv.findRun, MatchingEnv.contextFor, hexisting])
      exact ⟨_, (Steps.single hsearch).trans hrest⟩
  | threeWay =>
    generalize hc : (⟨documentId, po, .threeWay⟩ : MatchCall) = c at *
    have hmode : c.mode = .threeWay := hc ▸ rfl
    have hb : E.contextFor w.db c = some (w.db.contextOf E c) := by simp [MatchingEnv.contextFor, hmode]
    have hreceipts : (w.enter i (.extracted c x)).next E (.readReceipts i) =
        some (w.enter i (.received c x (w.db.receiptsOf c.purchaseOrder.id))) := by
      simp [MatchWorld.next, hmode]
    have hallocations : (w.enter i (.received c x (w.db.receiptsOf c.purchaseOrder.id))).next E (.readAllocations i) =
        some (w.enter i (.built c x (w.db.contextOf E c))) := by
      simp only [MatchWorld.next, txns_enter, db_enter, enter_enter]
      rfl
    have hbuilt := (Steps.single hreceipts).trans (.single hallocations)
    cases hprior : w.db.findPrior (E.key c x (some (w.db.contextOf E c))) (w.db.contextOf E c).replayFingerprint with
    | some run =>
      have hsearch : (w.enter i (.built c x (w.db.contextOf E c))).next E (.searchPrior i) =
          some (w.enter i (.replaying run)) := by
        simp only [MatchWorld.next, txns_enter, db_enter, hprior, enter_enter]
      obtain ⟨acts, hrest⟩ := hfound run (by simp [MatchingEnv.findRun, hb, hprior])
      exact ⟨_, (hbuilt.trans (.single hsearch)).trans hrest⟩
    | none =>
      have hsearch : (w.enter i (.built c x (w.db.contextOf E c))).next E (.searchPrior i) =
          some (w.enter i (.searched c x (w.db.contextOf E c))) := by
        simp only [MatchWorld.next, txns_enter, db_enter, hprior, enter_enter]
      cases hexisting : w.db.findExisting (E.key c x (some (w.db.contextOf E c))) with
      | some run =>
        have hsearch' : (w.enter i (.searched c x (w.db.contextOf E c))).next E (.searchExisting i) =
            some (w.enter i (.replaying run)) := by
          simp only [MatchWorld.next, txns_enter, MatchWorld.searchExisting, db_enter, hexisting, enter_enter]
        obtain ⟨acts, hrest⟩ := hfound run (by simp [MatchingEnv.findRun, hb, hprior, hexisting])
        exact ⟨_, ((hbuilt.trans (.single hsearch)).trans (.single hsearch')).trans hrest⟩
      | none =>
        have hsearch' : (w.enter i (.searched c x (w.db.contextOf E c))).next E (.searchExisting i) =
            some (w.enter i (.absent c x (some (w.db.contextOf E c)))) := by
          simp only [MatchWorld.next, txns_enter, MatchWorld.searchExisting, db_enter, hexisting, enter_enter]
        obtain ⟨acts, hrest⟩ := habsent (by simp [MatchingEnv.findRun, hb, hprior, hexisting])
        rw [hb] at hrest
        exact ⟨_, ((hbuilt.trans (.single hsearch)).trans (.single hsearch')).trans hrest⟩

/-- The number `i` is not used by a transaction. -/
structure MatchWorld.Idle (w : MatchWorld) (i : ℕ) : Prop where
  txn : w.txns i = none
  locks : ∀ p, w.locks p ≠ some i

theorem MatchWorld.Idle.ended_eq (h : w.Idle i) (db : Tables) : w.ended i db = { w with db := db } := by
  have htxns : Function.update w.txns i none = w.txns := by
    rw [← h.txn]
    exact Function.update_eq_self ..
  have hlocks : (w.release i).locks = w.locks := by
    funext p
    exact if_neg (h.locks p)
  exact congrArg₂ (fun locks txns => (⟨db, locks, txns⟩ : MatchWorld)) hlocks htxns

theorem ended_lock {p : Uuid} (hfree : w.locks p = none) (db : Tables) : (w.lock i p).ended i db = w.ended i db := by
  have hlocks : ((w.lock i p).release i).locks = (w.release i).locks := by
    funext q
    by_cases hq : q = p
    · subst hq
      simp [MatchWorld.lock, MatchWorld.release, hfree]
    · simp [MatchWorld.lock, MatchWorld.release, hq]
  exact congrArg (fun locks => (⟨db, locks, Function.update w.txns i none⟩ : MatchWorld)) hlocks

theorem callMatch_steps {documentId purchaseOrderId : Uuid} {mode : MatchingMode} {r : MatchServiceResult}
    (hidle : w.Idle i) (hfree : mode = .threeWay → w.locks purchaseOrderId = none)
    (h : E.callMatch w.db fresh documentId purchaseOrderId mode = .ok r) :
    ∃ acts, Steps (MatchWorld.next E) w acts { w with db := r.tables } := by
  unfold MatchingEnv.callMatch at h
  split at h
  · cases h
  · next po hpo =>
    split at h
    · cases h
    · next x hx =>
      have hread : ∀ w' : MatchWorld, w'.db = w.db →
          (w'.enter i (.begun ⟨documentId, po, mode⟩)).next E (.readExtraction i) =
            some (w'.enter i (.extracted ⟨documentId, po, mode⟩ x)) := by
        intro w' hdb
        simp only [MatchWorld.next, txns_enter, db_enter, hdb, hx, enter_enter]
      rw [← hidle.ended_eq]
      cases mode with
      | twoWay =>
        have hbegin : w.next E (.beginMatch i documentId purchaseOrderId .twoWay) =
            some (w.enter i (.begun ⟨documentId, po, .twoWay⟩)) := by
          simp [MatchWorld.next, hidle.txn, MatchWorld.beginMatch, hpo]
        obtain ⟨acts, hrest⟩ := findRun_steps (w := w) (i := i) h
        exact ⟨_, ((Steps.single hbegin).trans (.single (hread w rfl))).trans hrest⟩
      | threeWay =>
        have hbegin : w.next E (.beginMatch i documentId purchaseOrderId .threeWay) =
            some ((w.lock i purchaseOrderId).enter i (.begun ⟨documentId, po, .threeWay⟩)) := by
          simp [MatchWorld.next, hidle.txn, MatchWorld.beginMatch, hpo, MatchWorld.lockFor, hfree rfl]
        obtain ⟨acts, hrest⟩ := findRun_steps (w := w.lock i purchaseOrderId) (i := i) h
        rw [ended_lock (hfree rfl)] at hrest
        exact ⟨_, ((Steps.single hbegin).trans (.single (hread _ rfl))).trans hrest⟩

theorem idle_of_moves {w' : MatchWorld} {a : MatchAct} (h : MatchMoves E w a w') :
    ∃ j, ∀ i, i ≠ j → w.Idle i → w'.Idle i := by
  have henter : ∀ (v : MatchWorld) (j : ℕ) (ph : TxnPhase), ∀ i, i ≠ j → v.Idle i → (v.enter j ph).Idle i :=
    fun v j ph i hne hi => ⟨by simpa [MatchWorld.enter, hne] using hi.txn, hi.locks⟩
  have hlock : ∀ (v : MatchWorld) (j : ℕ) (p : Uuid), ∀ i, i ≠ j → v.Idle i → (v.lock j p).Idle i := by
    refine fun v j p i hne hi => ⟨hi.txn, fun q hq => ?_⟩
    by_cases hqp : q = p
    · subst hqp
      exact hne (by simpa [MatchWorld.lock] using hq.symm)
    · exact hi.locks q (by simpa [MatchWorld.lock, hqp] using hq)
  have hrelease : ∀ (v : MatchWorld) (j : ℕ), ∀ i, v.Idle i → (v.release j).Idle i := by
    refine fun v j i hi => ⟨hi.txn, fun q hq => ?_⟩
    simp only [MatchWorld.release] at hq
    split_ifs at hq
    exact hi.locks q hq
  have hfinish : ∀ (v : MatchWorld) (j : ℕ), ∀ i, i ≠ j → v.Idle i → (v.finish j).Idle i :=
    fun v j i hne hi => ⟨by simpa [MatchWorld.finish, hne] using hi.txn, (hrelease v j i hi).locks⟩
  cases h with
  | order => exact ⟨0, fun i _ hi => ⟨hi.txn, hi.locks⟩⟩
  | extraction => exact ⟨0, fun i _ hi => ⟨hi.txn, hi.locks⟩⟩
  | receipt => exact ⟨0, fun i _ hi => ⟨hi.txn, hi.locks⟩⟩
  | @lockReceipt j => exact ⟨j, fun i hne hi => henter _ j _ i hne (hlock w j _ i hne hi)⟩
  | @lockReversal j => exact ⟨j, fun i hne hi => henter _ j _ i hne (hlock w j _ i hne hi)⟩
  | @lockMatch j => exact ⟨j, fun i hne hi => henter _ j _ i hne (hlock w j _ i hne hi)⟩
  | @enterMatch j => exact ⟨j, henter w j _⟩
  | @read j => exact ⟨j, henter w j _⟩
  | @finish j => exact ⟨j, hfinish w j⟩
  | @rollback j => exact ⟨j, fun i hne hi => henter _ j _ i hne (hrelease w j i hi)⟩
  | @commit j => exact ⟨j, fun i hne hi => ⟨(hfinish w j i hne hi).txn, (hfinish w j i hne hi).locks⟩⟩
  | @commitReceipt j => exact ⟨j, fun i hne hi => ⟨(hfinish w j i hne hi).txn, (hfinish w j i hne hi).locks⟩⟩
  | @commitReversal j => exact ⟨j, fun i hne hi => ⟨(hfinish w j i hne hi).txn, (hfinish w j i hne hi).locks⟩⟩

theorem exists_idle {acts : List MatchAct} (h : Steps (MatchWorld.next E) .initial acts w) : ∃ i, w.Idle i := by
  have hbound : ∃ n, ∀ i ≥ n, w.Idle i := by
    refine h.invariant (I := fun s => ∃ n, ∀ i ≥ n, s.Idle i) (fun s e t hs hn => ?_)
      ⟨0, fun i _ => ⟨rfl, fun _ heq => by cases heq⟩⟩
    obtain ⟨n, hn'⟩ := hs
    obtain ⟨j, hj⟩ := idle_of_moves (matchMoves_of_next hn)
    exact ⟨max n (j + 1), fun i hi => hj i (by omega) (hn' i (by omega))⟩
  obtain ⟨n, hn⟩ := hbound
  exact ⟨n, hn n le_rfl⟩

end

/-- A step of a transaction, or a whole call. -/
inductive ServiceAct
  | act (a : MatchAct)
  | call (documentId purchaseOrderId : Uuid) (mode : MatchingMode) (fresh : FreshIds)

/-- A call waits for the row it needs; when it raises, it leaves the tables as they are. -/
def MatchWorld.nextService (E : MatchingEnv) (w : MatchWorld) : ServiceAct → Option MatchWorld
  | .act a => w.next E a
  | .call documentId purchaseOrderId mode fresh =>
    if mode = .threeWay ∧ w.locks purchaseOrderId ≠ none then none
    else
      match E.callMatch w.db fresh documentId purchaseOrderId mode with
      | .ok r => some { w with db := r.tables }
      | .error _ => some w

theorem steps_of_service {E : MatchingEnv} {acts₀ : List MatchAct} {acts : List ServiceAct} {s w : MatchWorld}
    (hs : Steps (MatchWorld.next E) .initial acts₀ s) (h : Steps (MatchWorld.nextService E) s acts w) :
    ∃ acts', Steps (MatchWorld.next E) s acts' w := by
  induction h with
  | nil => exact ⟨[], .nil⟩
  | @snoc acts t e t' hrun hn ih =>
    obtain ⟨acts', hsteps⟩ := ih
    cases e with
    | act a => exact ⟨_, hsteps.snoc hn⟩
    | call documentId purchaseOrderId mode fresh =>
      simp only [MatchWorld.nextService] at hn
      split_ifs at hn with hheld
      split at hn
      · next r hcall =>
        obtain rfl := Option.some.inj hn
        obtain ⟨i, hidle⟩ := exists_idle (hs.trans hsteps)
        obtain ⟨acts'', hcalled⟩ := callMatch_steps hidle (fun hmode => not_ne_iff.1 fun hne => hheld ⟨hmode, hne⟩) hcall
        exact ⟨_, hsteps.trans hcalled⟩
      · obtain rfl := Option.some.inj hn
        exact ⟨_, hsteps⟩

end InvoiceOps
