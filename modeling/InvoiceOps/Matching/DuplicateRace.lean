import InvoiceOps.Matching.Allocation

/-! Duplicate detection across transactions. A match reads the stored feature rows, assesses its invoice
against them and stores its own row at its commit; no lock covers the time between the two, unless both
matches are three-way on the same purchase order. Two matches of the same invoice that read before either
commits are both clear. `no_false_clear` says that this is the only way. -/

namespace InvoiceOps

open Calendar StateMachine

/-- Complete rows of two documents that are exact duplicates of each other. -/
def Duplicates (policy : DuplicateRiskPolicy) (f g : RiskFeatureRecord) : Prop :=
  f.documentId ≠ g.documentId ∧ (recordToSnapshot f).complete = true ∧ (recordToSnapshot g).complete = true ∧
    exactDuplicate policy (recordToSnapshot f) (recordToSnapshot g)

instance (policy : DuplicateRiskPolicy) (f g : RiskFeatureRecord) : Decidable (Duplicates policy f g) :=
  inferInstanceAs (Decidable (_ ∧ _ ∧ _ ∧ _))

/-- The assessment of one of the two runs asks for a review. -/
def Flagged (E : MatchingEnv) (db : Tables) (f g : RiskFeatureRecord) : Prop :=
  ∃ a ∈ db.assessments, (a.matchRunId = f.matchRunId ∨ a.matchRunId = g.matchRunId) ∧
    a.policyVersion = E.riskPolicy.version ∧ a.result.disposition = .needsReview

instance (E : MatchingEnv) (db : Tables) (f g : RiskFeatureRecord) : Decidable (Flagged E db f g) :=
  inferInstanceAs (Decidable (∃ a ∈ db.assessments, _ ∧ _ ∧ _))

/-- Of any two stored duplicates one at least has been flagged. -/
def NoFalseClear (E : MatchingEnv) (db : Tables) : Prop :=
  ∀ f ∈ db.features, ∀ g ∈ db.features, Duplicates E.riskPolicy f g → Flagged E db f g

instance (E : MatchingEnv) (db : Tables) : Decidable (NoFalseClear E db) :=
  inferInstanceAs (Decidable (∀ f ∈ db.features, ∀ g ∈ db.features, _ → _))

/-- The feature rows a step is about to commit, and those its transaction has read. -/
def MatchWorld.committing (w : MatchWorld) : MatchAct → List RiskFeatureRecord × List RiskFeatureRecord
  | .commit i =>
    match w.txns i with
    | some (.ready _ visible rows) => (rows.features, visible)
    | _ => ([], [])
  | _ => ([], [])

/-- A match that commits has read every stored duplicate of the row it adds: none was committed since
it looked for candidates. -/
def SeesDuplicates (E : MatchingEnv) (w : MatchWorld) (a : MatchAct) : Prop :=
  ∀ f ∈ (w.committing a).1, ∀ g ∈ w.db.features, Duplicates E.riskPolicy f g → g ∈ (w.committing a).2

instance (E : MatchingEnv) (w : MatchWorld) (a : MatchAct) : Decidable (SeesDuplicates E w a) :=
  inferInstanceAs (Decidable (∀ f ∈ _, ∀ g ∈ w.db.features, _ → _))

section

variable {policy : DuplicateRiskPolicy} {f g : RiskFeatureRecord} {features : RiskFeatureSnapshot}

theorem amountClose_iff {a b : RiskFeatureSnapshot} : amountClose policy a b ↔
    |@DecimalContext.rounded .standard (a.amount.toRat - b.amount.toRat)| ≤ policy.amountAbsoluteTolerance.toRat := by
  unfold amountClose amountDifference
  rw [Decimal.le_iff, DecimalContext.toRat_absDiff]

theorem Duplicates.symm (h : Duplicates policy f g) : Duplicates policy g f := by
  obtain ⟨hdoc, hf, hg, hvendor, hnumber, hdate, hcurrency, hclose⟩ := h
  refine ⟨hdoc.symm, hg, hf, hvendor.symm, hnumber.symm, hdate.symm, hcurrency.symm, ?_⟩
  rw [amountClose_iff, ← neg_sub, DecimalContext.rounded_neg, abs_neg]
  exact amountClose_iff.1 hclose

theorem amount_featureRecord (features : RiskFeatureSnapshot) :
    (recordToSnapshot (featureRecord features)).amount.toRat = features.amount.toRat := by
  unfold RiskFeatureSnapshot.amount recordToSnapshot featureRecord
  cases htotal : features.total.bind Decimal.ofText with
  | none => simp
  | some d =>
    obtain ⟨d', hd', hvalue⟩ := Decimal.ofText_text d
    simp [hd', hvalue]

theorem complete_of_featureRecord (h : (recordToSnapshot (featureRecord features)).complete = true) :
    features.complete = true := by
  obtain ⟨hvendor, hnumber, hdate, hcurrency, htotal⟩ := complete_iff.1 h
  refine complete_iff.2 ⟨hvendor, hnumber, hdate, hcurrency, ?_⟩
  cases hs : features.total with
  | some s => rfl
  | none => simp [recordToSnapshot, featureRecord, hs] at htotal

theorem exactDuplicate_of_duplicates (h : Duplicates policy (featureRecord features) g) :
    features.complete = true ∧ exactDuplicate policy features (recordToSnapshot g) := by
  obtain ⟨-, hf, -, hvendor, hnumber, hdate, hcurrency, hclose⟩ := h
  refine ⟨complete_of_featureRecord hf, hvendor, hnumber, hdate, hcurrency, ?_⟩
  rw [amountClose_iff, ← amount_featureRecord]
  exact amountClose_iff.1 hclose

end

/-- Every run has its features and its assessment, and these belong to stored runs. -/
structure AssessmentsOk (E : MatchingEnv) (db : Tables) : Prop where
  featureIds : (db.features.map (·.matchRunId)).Nodup
  featureRuns : ∀ f ∈ db.features, f.matchRunId ∈ db.runs.map (·.id)
  assessmentRuns : ∀ a ∈ db.assessments, a.matchRunId ∈ db.runs.map (·.id)
  featured : ∀ r ∈ db.runs, r.id ∈ db.features.map (·.matchRunId)
  assessed : ∀ r ∈ db.runs, (r.id, E.riskPolicy.version) ∈
    db.assessments.map fun a => (a.matchRunId, a.policyVersion)
  noFalseClear : NoFalseClear E db

/-- The row and the assessment of a new run, made from the rows it has read. -/
structure AssessedRows (E : MatchingEnv) (visible : List RiskFeatureRecord) (run : MatchRun) (rows : NewRows) :
    Prop where
  distinct : (visible.map (·.matchRunId)).Nodup
  made : ∃ features id a, features.matchRunId = run.id ∧ rows.features = [featureRecord features] ∧
    rows.assessments = [a] ∧
    assessRun E.similarity E.riskPolicy visible (featureRecord features) features id = some a

/-- What a transaction is about to store. The id of a run that is there already is refused. -/
def RiskTxnOk (E : MatchingEnv) (db : Tables) : TxnPhase → Prop
  | .ready (some _) visible rows => ∃ run, rows.runs = [run] ∧
      (run.id ∈ db.runs.map (·.id) ∨ AssessedRows E visible run rows)
  | .ready none _ rows => rows.runs = [] ∧ rows.features = [] ∧ rows.assessments = []
  | .replaying run => run ∈ db.runs
  | _ => True

structure RaceInv (E : MatchingEnv) (w : MatchWorld) : Prop where
  tables : AssessmentsOk E w.db
  txns : ∀ i phase, w.txns i = some phase → RiskTxnOk E w.db phase

section

variable {E : MatchingEnv} {db db' : Tables} {w w' : MatchWorld} {i : ℕ} {phase phase' : TxnPhase}

theorem RiskTxnOk.mono (h : RiskTxnOk E db phase) (hruns : db.runs ⊆ db'.runs) : RiskTxnOk E db' phase := by
  cases phase with
  | ready key visible rows =>
    cases key with
    | none => exact h
    | some key =>
      obtain ⟨run, hrun, hold | hnew⟩ := h
      · exact ⟨run, hrun, .inl (List.map_subset _ hruns hold)⟩
      · exact ⟨run, hrun, .inr hnew⟩
  | replaying run => exact hruns h
  | _ => trivial

theorem Reads.riskOk (h : Reads E db phase phase') (hdb : AssessmentsOk E db) (hok : RiskTxnOk E db phase) :
    RiskTxnOk E db phase' := by
  cases h with
  | @assess c x b run drafts ids allocations assessmentId risk caseId now hrows hrisk =>
    refine ⟨run, rfl, ?_⟩
    by_cases hrun : run.id ∈ db.runs.map (·.id)
    · exact .inl hrun
    · obtain ⟨features, a, hid, rfl, ha⟩ := ensureRisk_new (Lists.not_mem_keys hdb.featureRuns hrun)
        (Lists.not_mem_keys hdb.assessmentRuns hrun) hrisk
      exact .inr ⟨hdb.featureIds, features, assessmentId, a, hid, rfl, rfl, ha⟩
  | @repair run x po assessmentId risk caseId now hrisk =>
    obtain ⟨a, -, -, -, hstored⟩ := ensureRisk_stored po x.invoice assessmentId (hdb.featured _ hok) (hdb.assessed _ hok)
    obtain rfl := Option.some.inj (hstored.symm.trans hrisk)
    exact ⟨rfl, rfl, rfl⟩
  | found hrun => exact hrun
  | _ => trivial

theorem AssessmentsOk.congr (h : AssessmentsOk E db) (hruns : db'.runs = db.runs)
    (hfeatures : db'.features = db.features) (hassessments : db'.assessments = db.assessments) :
    AssessmentsOk E db' := by
  obtain ⟨h1, h2, h3, h4, h5, h6⟩ := h
  refine ⟨?_, ?_, ?_, ?_, ?_, ?_⟩
  all_goals simp only [NoFalseClear, Flagged, hruns, hfeatures, hassessments]
  all_goals assumption

variable {visible : List RiskFeatureRecord} {run : MatchRun} {rows : NewRows}

theorem AssessedRows.flagged (h : AssessedRows E visible run rows) {f g : RiskFeatureRecord}
    (hf : f ∈ rows.features) (hg : g ∈ visible) (hrun : g.matchRunId ≠ run.id)
    (hdup : Duplicates E.riskPolicy f g) :
    ∃ a ∈ rows.assessments, a.matchRunId = f.matchRunId ∧ a.policyVersion = E.riskPolicy.version ∧
      a.result.disposition = .needsReview := by
  obtain ⟨features, id, a, hid, hfeatures, hassessments, ha⟩ := h.made
  rw [hfeatures] at hf
  obtain rfl := List.mem_singleton.1 hf
  obtain ⟨hcomplete, hexact⟩ := exactDuplicate_of_duplicates hdup
  have hcomp : comparable features (recordToSnapshot g) = true := by
    simp only [comparable, Bool.and_eq_true, decide_eq_true_eq]
    exact ⟨⟨hdup.2.2.1, hid ▸ hrun⟩, hdup.1.symm⟩
  have hdisposition := needsReview_of_exactDuplicate ha h.distinct hg hcomplete hcomp hexact
  obtain ⟨found, -, rfl⟩ := Option.map_eq_some_iff.1 ha
  exact ⟨_, by rw [hassessments]; exact List.mem_singleton_self _, rfl, rfl, hdisposition⟩

/-- A commit whose transaction has read the stored duplicates of its row leaves none unflagged. -/
theorem AssessedRows.noFalseClear (h : AssessedRows E visible run rows) (hok : AssessmentsOk E db)
    (hfresh : run.id ∉ db.runs.map (·.id))
    (hsees : ∀ f ∈ rows.features, ∀ g ∈ db.features, Duplicates E.riskPolicy f g → g ∈ visible) :
    NoFalseClear E (db.insert rows) := by
  have hflagged : ∀ f ∈ rows.features, ∀ g ∈ db.features, Duplicates E.riskPolicy f g →
      Flagged E (db.insert rows) f g := by
    intro f hf g hg hdup
    have hne : g.matchRunId ≠ run.id := fun heq => hfresh (heq ▸ hok.featureRuns g hg)
    obtain ⟨a, ha, hid, hversion, hreview⟩ := h.flagged hf (hsees f hf g hg hdup) hne hdup
    exact ⟨a, List.mem_append_right _ ha, .inl hid, hversion, hreview⟩
  intro f hf g hg hdup
  rcases List.mem_append.1 hf with hfold | hfnew <;> rcases List.mem_append.1 hg with hgold | hgnew
  · obtain ⟨a, ha, hflag⟩ := hok.noFalseClear f hfold g hgold hdup
    exact ⟨a, List.mem_append_left _ ha, hflag⟩
  · obtain ⟨a, ha, hrunid, hflag⟩ := hflagged g hgnew f hfold hdup.symm
    exact ⟨a, ha, hrunid.symm, hflag⟩
  · exact hflagged f hfnew g hgold hdup
  · -- a run adds one row, and a row is not its own duplicate
    obtain ⟨features, id, a, -, hfeatures, -⟩ := h.made
    rw [hfeatures] at hfnew hgnew
    rw [List.mem_singleton.1 hfnew, List.mem_singleton.1 hgnew] at hdup
    exact absurd rfl hdup.1

theorem AssessmentsOk.insert (h : AssessmentsOk E db) (hruns : rows.runs = [run])
    (hrows : AssessedRows E visible run rows) (haccepts : db.Accepts rows)
    (hsees : ∀ f ∈ rows.features, ∀ g ∈ db.features, Duplicates E.riskPolicy f g → g ∈ visible) :
    AssessmentsOk E (db.insert rows) := by
  have hfresh : run.id ∉ db.runs.map (·.id) := (haccepts.runs run (by simp [hruns])).1
  have hflagged := hrows.noFalseClear h hfresh hsees
  obtain ⟨features, id, a, hid, hfeatures, hassessments, ha⟩ := hrows.made
  obtain ⟨found, -, rfl⟩ := Option.map_eq_some_iff.1 ha
  have hnew : features.matchRunId ∉ db.features.map (·.matchRunId) := by
    intro hmem
    obtain ⟨f, hf, heq⟩ := List.mem_map.1 hmem
    exact hfresh (hid ▸ heq ▸ h.featureRuns f hf)
  refine ⟨?_, ?_, ?_, ?_, ?_, hflagged⟩
  all_goals simp only [Tables.insert, hruns, hfeatures, hassessments, List.map_append, List.map_singleton]
  · rw [← List.map_singleton, ← List.map_append]
    exact Lists.nodup_map_snoc h.featureIds hnew
  · exact Lists.mem_keys_snoc h.featureRuns hid
  · exact Lists.mem_keys_snoc h.assessmentRuns hid
  · exact Lists.mem_keys_snoc h.featured hid.symm
  · exact Lists.mem_keys_snoc h.assessed (by rw [hid])

theorem RaceInv.step {a : MatchAct} (h : RaceInv E w) (hsees : SeesDuplicates E w a)
    (hstep : MatchMoves E w a w') : RaceInv E w' := by
  have hholds : w'.Holds (AssessmentsOk E) (RiskTxnOk E) := by
    refine MatchWorld.Holds.step ⟨h.tables, h.txns⟩ hstep
      (fun hs hok => hok.congr hs.runs hs.features hs.assessments) (fun hruns hok => hok.mono hruns) ?_
      (fun hok hread => hread.riskOk h.tables hok) ?_
    · intro db phase hfirst
      cases phase with
      | begun | recovering | receiving | reversing => trivial
      | _ => cases hfirst
    · intro i key visible rows ha hi haccepts
      have hready := h.txns i _ hi
      cases key with
      | none =>
        obtain ⟨hruns, hfeatures, hassessments⟩ := hready
        exact h.tables.congr (by simp [Tables.insert, hruns]) (by simp [Tables.insert, hfeatures])
          (by simp [Tables.insert, hassessments])
      | some key =>
        obtain ⟨run, hruns, hold | hrows⟩ := hready
        · exact absurd hold (haccepts.runs run (by simp [hruns])).1
        · subst ha
          simp only [SeesDuplicates, MatchWorld.committing, hi] at hsees
          exact h.tables.insert hruns hrows haccepts hsees
  exact ⟨hholds.tables, hholds.txns⟩

end

theorem raceInv_initial (E : MatchingEnv) : RaceInv E .initial where
  tables := by
    refine ⟨.nil, ?_, ?_, ?_, ?_, ?_⟩
    all_goals intro _ hmem; cases hmem
  txns _ _ h := by cases h

/-- In every run whose commits have all read the stored duplicates of what they add, of any two documents
with complete features that are exact duplicates of each other one at least is flagged. -/
theorem no_false_clear (E : MatchingEnv) {acts : List MatchAct} {w : MatchWorld}
    (h : Steps (restrict (SeesDuplicates E) (MatchWorld.next E)) .initial acts w) : NoFalseClear E w.db := by
  have hinv : RaceInv E w := by
    refine h.invariant (fun s a t hs hn => ?_) (raceInv_initial E)
    obtain ⟨hsees, hnext⟩ := restrict_eq_some.1 hn
    exact hs.step hsees (matchMoves_of_next hnext)
  exact hinv.tables.noFalseClear

/-- Transaction `i` matches a document two-way, up to its assessment. -/
def assessTwoWay (i document run assessment case : ℕ) : List MatchAct :=
  [.beginMatch i (Uuid.ofNat document) tapPurchase.id .twoWay, .readExtraction i, .searchExisting i,
    .decide i (Uuid.ofNat run), .assess i Uuid.ofNat (Uuid.ofNat assessment) (Uuid.ofNat case) .first]

def uploadedTwice : List MatchAct :=
  [.createOrder tapPurchase, .extract (tapExtraction 5 4), .extract (tapExtraction 15 14)]

/-- Both matches assess before either commits. -/
def racingActs : List MatchAct :=
  uploadedTwice ++ assessTwoWay 0 4 6 7 8 ++ assessTwoWay 1 14 16 17 18 ++ [.commit 0, .commit 1]

/-- Both documents are matched and clear, although they are exact duplicates. -/
theorem racing_clear : ∃ w, Steps (MatchWorld.next tapEnv) .initial racingActs w ∧
    w.db.runs.map (·.decision) = [.matched, .matched] ∧
    w.db.assessments.map (·.result.disposition) = [.clear, .clear] ∧ ¬ NoFalseClear tapEnv w.db := by
  have hexec : (exec (MatchWorld.next tapEnv) .initial racingActs).map
      (fun w => (w.db.runs.map (·.decision), w.db.assessments.map (·.result.disposition),
        decide (NoFalseClear tapEnv w.db))) = some ([.matched, .matched], [.clear, .clear], false) := by
    decide +kernel
  obtain ⟨w, hw, heq⟩ := Option.map_eq_some_iff.1 hexec
  obtain ⟨hruns, heq⟩ := Prod.mk.inj heq
  obtain ⟨hassessments, hclear⟩ := Prod.mk.inj heq
  exact ⟨w, .of_exec hw, hruns, hassessments, of_decide_eq_false hclear⟩

/-- The second match assesses after the first has committed. -/
def orderlyActs : List MatchAct :=
  uploadedTwice ++ assessTwoWay 0 4 6 7 8 ++ [.commit 0] ++ assessTwoWay 1 14 16 17 18 ++ [.commit 1]

theorem no_false_clear_orderlyActs :
    ∃ w, Steps (restrict (SeesDuplicates tapEnv) (MatchWorld.next tapEnv)) .initial orderlyActs w ∧
      w.db.assessments.map (·.result.disposition) = [.clear, .needsReview] ∧ NoFalseClear tapEnv w.db := by
  have hexec : (exec (restrict (SeesDuplicates tapEnv) (MatchWorld.next tapEnv)) .initial orderlyActs).map
      (fun w => w.db.assessments.map (·.result.disposition)) = some [.clear, .needsReview] := by
    decide +kernel
  obtain ⟨w, hw, heq⟩ := Option.map_eq_some_iff.1 hexec
  exact ⟨w, .of_exec hw, heq, no_false_clear tapEnv (.of_exec hw)⟩

end InvoiceOps
