import InvoiceOps.Matching.Storing

/-! The duplicate-risk service with everything it can raise (`risk/service.py`, `risk/engine.py`). Which features are
missing is listed beside the features, stored with them and read back; the comparison relies on the list and asserts
the features. On rows that the service has written the list is right and no assertion fails. The window around the
invoice date is another matter: near the ends of the calendar it cannot be computed. -/

namespace InvoiceOps

open Calendar

/-- A snapshot as the source has it, with its own list of missing fields. -/
structure ListedSnapshot extends RiskFeatureSnapshot where
  listed : List String

/-- A feature row with its column of missing fields. -/
structure ListedRecord extends RiskFeatureRecord where
  listed : List String

/-- A snapshot is taken for complete when its list is empty. -/
def ListedSnapshot.isComplete (f : ListedSnapshot) : Bool := f.listed.isEmpty

/-- `build_feature_snapshot`. The currency is listed before it is put in upper case, the total before it is printed. -/
def buildListedSnapshot (U : Unicode) (run : MatchRun) (po : PurchaseOrder) (invoice : Invoice) : ListedSnapshot :=
  { buildFeatureSnapshot U run po invoice with
    listed :=
      (if (nonBlank ((nonBlank po.vendorName).map (normalizeVendor U))).isNone then ["normalized_vendor"] else []) ++
      (if (nonBlank (invoice.invoiceNumber.extractedValue.map (normalizeInvoiceNumber U))).isNone then
        ["normalized_invoice_number"] else []) ++
      (if invoice.invoiceDate.extractedValue.isNone then ["invoice_date"] else []) ++
      (if invoice.currency.extractedValue.isNone then ["currency"] else []) ++
      (if invoice.total.extractedValue.isNone then ["total"] else []) }

def listedRecord (f : ListedSnapshot) : ListedRecord :=
  { featureRecord f.toRiskFeatureSnapshot with listed := f.listed }

def listedToSnapshot (r : ListedRecord) : ListedSnapshot :=
  { recordToSnapshot r.toRiskFeatureRecord with listed := r.listed }

def ListedSnapshot.Right (f : ListedSnapshot) : Prop := f.listed = f.missingFields

def ListedRecord.Right (r : ListedRecord) : Prop := (listedToSnapshot r).Right

theorem right_buildListedSnapshot (U : Unicode) (run : MatchRun) (po : PurchaseOrder) (invoice : Invoice) :
    (buildListedSnapshot U run po invoice).Right := by
  simp [ListedSnapshot.Right, buildListedSnapshot, RiskFeatureSnapshot.missingFields, missingFeatures,
    buildFeatureSnapshot]

theorem right_listedRecord {f : ListedSnapshot} (h : f.Right) : (listedRecord f).Right := by
  have htotal : ((f.total.bind Decimal.ofText).map Decimal.text).isNone = f.total.isNone := by
    cases hf : f.total with
    | none => rfl
    | some s =>
      obtain ⟨d, hd⟩ := Option.isSome_iff_exists.1 (f.total_numeric s hf)
      simp [hd]
  rw [ListedSnapshot.Right] at h
  simp only [ListedRecord.Right, ListedSnapshot.Right, listedToSnapshot, listedRecord, h,
    RiskFeatureSnapshot.missingFields, missingFeatures, recordToSnapshot, featureRecord, htotal]

theorem isComplete_of_right {f : ListedSnapshot} (h : f.Right) : f.isComplete = f.complete := by
  rw [ListedSnapshot.isComplete, h, RiskFeatureSnapshot.complete]

/-- What an assessment can raise. -/
inductive RiskFault
  /-- A day or a span of days is out of range. -/
  | overflow
  | assertion
  /-- A signal compares a run with itself. -/
  | ownRun
  | dataError
deriving DecidableEq, Repr

/-- The assertions `_compare` makes of a snapshot. -/
def RiskFeatureSnapshot.Present (f : RiskFeatureSnapshot) : Prop :=
  f.normalizedVendor.isSome ∧ f.normalizedInvoiceNumber.isSome ∧ f.invoiceDate.isSome ∧ f.currency.isSome ∧
    f.total.isSome

instance (f : RiskFeatureSnapshot) : Decidable f.Present := inferInstanceAs (Decidable (_ ∧ _ ∧ _ ∧ _ ∧ _))

section

variable (similarity : String → String → Decimal) (policy : DuplicateRiskPolicy) (current : ListedSnapshot)

/-- `_compare` -/
def compareListed (reference : ListedSnapshot) : Except RiskFault (List RiskSignalDraft) :=
  if current.Present ∧ reference.Present then
    .ok (compareFeatures similarity policy current.toRiskFeatureSnapshot reference.toRiskFeatureSnapshot)
  else .error .assertion

def referenceSignals (reference : ListedSnapshot) : Except RiskFault (List RiskSignalDraft) :=
  if reference.isComplete = false ∨ reference.matchRunId = current.matchRunId then .ok []
  else if reference.documentId = current.documentId then .ok []
  else compareListed similarity policy current reference

/-- The signal of a snapshot with a list of missing fields. -/
def listedSignal : RiskSignalDraft :=
  { incompleteSignal current.toRiskFeatureSnapshot with
    observed := [("missing_fields", .arr (current.listed.map Json.str))]
    explanation := "Duplicate comparison is incomplete because required business-key " ++
      "features are unavailable: " ++ ", ".intercalate current.listed ++ "." }

/-- `assess_duplicate_risk` -/
def assessListed (historical : List ListedSnapshot) : Except RiskFault RiskAssessmentResult :=
  let signals := if current.isComplete then (historical.mapM (referenceSignals similarity policy current)).map List.flatten
    else .ok [listedSignal current]
  signals.map fun signals =>
    let ordered := (deduplicate signals).insertionSort fun s t => s.orderKey ≤ t.orderKey
    { disposition := dispositionOf policy ordered, features := current.toRiskFeatureSnapshot, signals := ordered }

end

section

variable {similarity : String → String → Decimal} {policy : DuplicateRiskPolicy} {current reference : ListedSnapshot}

theorem present_of_isComplete (h : reference.Right) (hcomplete : reference.isComplete = true) : reference.Present := by
  rw [isComplete_of_right h] at hcomplete
  exact complete_iff.1 hcomplete

theorem referenceSignals_of_right (hcurrent : current.Right) (hcomplete : current.isComplete = true)
    (hreference : reference.Right) :
    referenceSignals similarity policy current reference =
      .ok (if comparable current.toRiskFeatureSnapshot reference.toRiskFeatureSnapshot then
        compareFeatures similarity policy current.toRiskFeatureSnapshot reference.toRiskFeatureSnapshot else []) := by
  have hlist := isComplete_of_right hreference
  unfold referenceSignals
  by_cases hskip : reference.isComplete = false ∨ reference.matchRunId = current.matchRunId
  · rw [if_pos hskip, if_neg]
    rw [hlist] at hskip
    simp only [comparable, Bool.and_eq_true, decide_eq_true_eq]
    rintro ⟨⟨hc, hrun⟩, -⟩
    rcases hskip with hskip | hskip
    · rw [hskip] at hc
      cases hc
    · exact hrun hskip
  · rw [if_neg hskip]
    rw [not_or] at hskip
    have hc : reference.isComplete = true := by simpa using hskip.1
    by_cases hdocument : reference.documentId = current.documentId
    · rw [if_pos hdocument, if_neg]
      simp [comparable, hdocument]
    · have hcomparable : comparable current.toRiskFeatureSnapshot reference.toRiskFeatureSnapshot = true := by
        simp [comparable, ← hlist, hc, hskip.2, hdocument]
      have hpresent := And.intro (present_of_isComplete hcurrent hcomplete) (present_of_isComplete hreference hc)
      rw [if_neg hdocument, if_pos hcomparable, compareListed, if_pos hpresent]

theorem mapM_ok {α β ε : Type} {f : α → Except ε β} {g : α → β} {xs : List α} (h : ∀ x ∈ xs, f x = .ok (g x)) :
    xs.mapM f = .ok (xs.map g) := by
  induction xs with
  | nil => rfl
  | cons x xs ih =>
    rw [List.mapM_cons, h x (by simp), ih fun y hy => h y (by simp [hy])]
    rfl

/-- With the right lists no assertion fails, and the engine computes what it does for snapshots whose missing fields are
read off them. -/
theorem assessListed_of_right {historical : List ListedSnapshot} (hcurrent : current.Right)
    (hhistorical : ∀ r ∈ historical, r.Right) :
    assessListed similarity policy current historical =
      .ok (assessDuplicateRisk similarity policy current.toRiskFeatureSnapshot
        (historical.map (·.toRiskFeatureSnapshot))) := by
  have hlist := isComplete_of_right hcurrent
  unfold assessListed assessDuplicateRisk
  by_cases hcomplete : current.isComplete = true
  · have hsignals : historical.mapM (referenceSignals similarity policy current) = .ok (historical.map fun r =>
        if comparable current.toRiskFeatureSnapshot r.toRiskFeatureSnapshot then
          compareFeatures similarity policy current.toRiskFeatureSnapshot r.toRiskFeatureSnapshot else []) :=
      mapM_ok fun r hr => referenceSignals_of_right hcurrent hcomplete (hhistorical r hr)
    rw [hlist] at hcomplete
    simp only [hlist, hcomplete, if_true, hsignals, comparisonSignals, List.flatMap_map]
    rfl
  · have hsignal : listedSignal current = incompleteSignal current.toRiskFeatureSnapshot := by
      rw [listedSignal, hcurrent]
      rfl
    rw [hlist] at hcomplete
    simp only [hlist, hcomplete, hsignal]
    rfl

end

/-- The feature rows and the assessments. -/
structure RiskRows where
  features : List ListedRecord
  assessments : List RiskAssessment

/-- What a call of `ensure` is about: the run with its order and its invoice, the policy of the service and the id a
new assessment gets. -/
structure RiskCall where
  policy : DuplicateRiskPolicy
  run : MatchRun
  purchaseOrder : PurchaseOrder
  invoice : Invoice
  assessmentId : Uuid

section

variable (U : Unicode) (similarity : String → String → Decimal) (rows : RiskRows) (c : RiskCall)

def RiskCall.features : ListedSnapshot := buildListedSnapshot U c.run c.purchaseOrder c.invoice

/-- The row of the run: the stored one when there is one. -/
def RiskRows.record : ListedRecord :=
  (rows.features.find? (·.matchRunId = c.run.id)).getD (listedRecord (c.features U))

/-- `_ensure_feature_record`; the columns can refuse a new row. -/
def RiskRows.ensureFeatureRecord : Except RiskFault RiskRows :=
  if (rows.features.find? (·.matchRunId = c.run.id)).isSome then .ok rows
  else if (rows.record U c).Fits then .ok { rows with features := rows.features ++ [rows.record U c] }
  else .error .dataError

/-- `_candidate_records` -/
def RiskRows.candidates (policy : DuplicateRiskPolicy) (current : ListedRecord) : Option (ℕ × List ListedRecord) :=
  (windowCondition policy.dateWindowDays current.toRiskFeatureRecord).map fun inWindow =>
    ((rows.features.filter fun r => baseCondition current.toRiskFeatureRecord r.toRiskFeatureRecord).length,
      rows.features.filter fun r => baseCondition current.toRiskFeatureRecord r.toRiskFeatureRecord &&
        plausibleRow inWindow current.toRiskFeatureRecord r.toRiskFeatureRecord)

/-- The assessment of the run under the policy. -/
def RiskRows.findForMatch : Option RiskAssessment :=
  rows.assessments.find? fun a => a.matchRunId = c.run.id ∧ a.policyVersion = c.policy.version

/-- The part of `ensure` for a run without an assessment, once its row is there. -/
def RiskRows.assess : Except RiskFault RiskAssessment :=
  match rows.candidates c.policy (rows.record U c) with
  | none => .error .overflow
  | some found =>
    let historical := found.2.map listedToSnapshot
    match assessListed similarity c.policy (c.features U) historical with
    | .error e => .error e
    | .ok result =>
      if ∃ s ∈ result.signals, s.comparisonMatchRunId = some c.run.id then .error .ownRun
      else .ok
        { id := c.assessmentId
          matchRunId := c.run.id
          policyVersion := c.policy.version
          result := result
          metrics :=
            { historicalRecordCount := found.1
              candidateRecordCount := found.2.length
              comparisonCount := (historical.filter fun f => f.isComplete &&
                decide (f.matchRunId ≠ c.run.id) && decide (f.documentId ≠ c.run.documentId)).length } }

/-- `DuplicateRiskService.ensure`: the rows after it, the assessment, and whether it is new. -/
def RiskRows.ensure : Except RiskFault (RiskRows × RiskAssessment × Bool) :=
  match rows.ensureFeatureRecord U c with
  | .error e => .error e
  | .ok rows' =>
    match rows.findForMatch c with
    | some a => .ok (rows', a, false)
    | none =>
      (rows'.assess U similarity c).map fun a => ({ rows' with assessments := rows'.assessments ++ [a] }, a, true)

/-- The rows after a call; when it fails, what it did is rolled back. -/
def RiskRows.next : RiskRows :=
  match rows.ensure U similarity c with
  | .ok r => r.1
  | .error _ => rows

end

def RiskRows.empty : RiskRows := ⟨[], []⟩

/-- The rows that a sequence of calls has written. -/
def RiskRows.after (U : Unicode) (similarity : String → String → Decimal) (calls : List RiskCall) : RiskRows :=
  calls.foldl (RiskRows.next U similarity) .empty

def RiskRows.Right (rows : RiskRows) : Prop := ∀ r ∈ rows.features, r.Right

section

variable {U : Unicode} {similarity : String → String → Decimal} {rows rows' : RiskRows} {c : RiskCall}

theorem RiskRows.Right.record (h : rows.Right) : (rows.record U c).Right := by
  unfold RiskRows.record
  cases hfind : rows.features.find? (·.matchRunId = c.run.id) with
  | none => exact right_listedRecord (right_buildListedSnapshot U c.run c.purchaseOrder c.invoice)
  | some r => exact h r (List.mem_of_find?_eq_some hfind)

theorem ensureFeatureRecord_cases (h : rows.ensureFeatureRecord U c = .ok rows') :
    rows'.assessments = rows.assessments ∧
      ((rows.features.find? (·.matchRunId = c.run.id)).isSome ∧ rows' = rows ∨
        (rows.features.find? (·.matchRunId = c.run.id)) = none ∧ (rows.record U c).Fits ∧
          rows'.features = rows.features ++ [rows.record U c]) := by
  unfold RiskRows.ensureFeatureRecord at h
  split_ifs at h with hsome hfits
  · obtain rfl := Except.ok.inj h
    exact ⟨rfl, .inl ⟨hsome, rfl⟩⟩
  · obtain rfl := Except.ok.inj h
    exact ⟨rfl, .inr ⟨by simpa using hsome, hfits, rfl⟩⟩

theorem RiskRows.Right.ensureFeatureRecord (h : rows.Right) (hok : rows.ensureFeatureRecord U c = .ok rows') :
    rows'.Right := by
  obtain ⟨-, ⟨-, rfl⟩ | ⟨-, -, hfeatures⟩⟩ := ensureFeatureRecord_cases hok
  · exact h
  · intro r hr
    rw [hfeatures] at hr
    rcases List.mem_append.1 hr with hr | hr
    · exact h r hr
    · obtain rfl := List.mem_singleton.1 hr
      exact h.record

theorem matchRunId_record : (rows.record U c).matchRunId = c.run.id := by
  unfold RiskRows.record
  cases hfind : rows.features.find? (·.matchRunId = c.run.id) with
  | none => rfl
  | some r => simpa using List.find?_some hfind

theorem record_ensureFeatureRecord (h : rows.ensureFeatureRecord U c = .ok rows') : rows'.record U c = rows.record U c := by
  obtain ⟨-, ⟨-, rfl⟩ | ⟨hnone, -, hfeatures⟩⟩ := ensureFeatureRecord_cases h
  · rfl
  · have hid : (rows.record U c).matchRunId = c.run.id := matchRunId_record
    rw [RiskRows.record, hfeatures, List.find?_append, hnone, Option.none_or, List.find?_cons_of_pos (by simpa using hid),
      Option.getD_some]

theorem RiskRows.Right.next (h : rows.Right) : (rows.next U similarity c).Right := by
  unfold RiskRows.next RiskRows.ensure
  cases hrecord : rows.ensureFeatureRecord U c with
  | error e => exact h
  | ok rows' =>
    have hright := h.ensureFeatureRecord hrecord
    cases rows.findForMatch c with
    | some a => exact hright
    | none =>
      cases hassess : rows'.assess U similarity c with
      | error e =>
        simp only [hassess]
        exact h
      | ok a =>
        simp only [hassess]
        exact hright

theorem right_after (calls : List RiskCall) : (RiskRows.after U similarity calls).Right := by
  have hfold : ∀ (calls : List RiskCall) (rows : RiskRows), rows.Right →
      (calls.foldl (RiskRows.next U similarity) rows).Right := by
    intro calls
    induction calls with
    | nil => exact fun _ h => h
    | cons c calls ih => exact fun rows h => ih _ h.next
  refine hfold calls .empty ?_
  intro r hr
  cases hr

theorem mem_insertSignal {signals : List RiskSignalDraft} {s t : RiskSignalDraft} (h : t ∈ insertSignal signals s) :
    t ∈ signals ∨ t = s := by
  unfold insertSignal at h
  split_ifs at h
  · obtain ⟨u, hu, rfl⟩ := List.mem_map.1 h
    split_ifs
    · exact .inr rfl
    · exact .inl hu
  · simpa using h

theorem mem_of_mem_deduplicate {signals : List RiskSignalDraft} {t : RiskSignalDraft} (h : t ∈ deduplicate signals) :
    t ∈ signals := by
  have hfold : ∀ (signals kept : List RiskSignalDraft), t ∈ signals.foldl insertSignal kept → t ∈ kept ∨ t ∈ signals := by
    intro signals
    induction signals with
    | nil => exact fun kept h => .inl h
    | cons s signals ih =>
      intro kept h
      rcases ih _ h with h | h
      · rcases mem_insertSignal h with h | rfl
        · exact .inl h
        · exact .inr (by simp)
      · exact .inr (List.mem_cons_of_mem _ h)
  exact (hfold signals [] h).resolve_left List.not_mem_nil

theorem ne_ownRun {policy : DuplicateRiskPolicy} {features : RiskFeatureSnapshot} {historical : List RiskFeatureSnapshot}
    {s : RiskSignalDraft} (hs : s ∈ (assessDuplicateRisk similarity policy features historical).signals) :
    s.comparisonMatchRunId ≠ some features.matchRunId := by
  have hs := mem_of_mem_deduplicate ((List.perm_insertionSort _ _).mem_iff.1 hs)
  split_ifs at hs with hcomplete
  · obtain ⟨r, -, hcomparable, hs⟩ := mem_comparisonSignals.1 hs
    rw [(compareFeatures_keys.2 s hs).1]
    simp only [comparable, Bool.and_eq_true, decide_eq_true_eq] at hcomparable
    simpa using hcomparable.1.2
  · obtain rfl := List.mem_singleton.1 hs
    simp [incompleteSignal]

/-- The days around the invoice date of the row can be computed, or are not asked for. -/
def WindowInRange (policy : DuplicateRiskPolicy) (r : RiskFeatureRecord) : Prop :=
  ∀ d, r.invoiceDate = some d → (nonBlank r.normalizedVendor).isSome → (nonBlank r.currency).isSome →
    policy.dateWindowDays < d.ordinal ∧ d.ordinal + policy.dateWindowDays ≤ 3652059

theorem windowCondition_isSome_iff {policy : DuplicateRiskPolicy} {r : RiskFeatureRecord} :
    (windowCondition policy.dateWindowDays r).isSome = true ↔ WindowInRange policy r := by
  unfold windowCondition WindowInRange
  split
  · next vendor currency d hvendor hcurrency hd =>
    simp only [hvendor, hcurrency, hd, Option.isSome_map, Option.some.injEq, forall_eq', Option.isSome_some,
      forall_const, dateWindow]
    split_ifs with h <;> simp [h]
  · next hnot =>
    refine iff_of_true rfl ?_
    intro d hd hvendor hcurrency
    obtain ⟨vendor, hvendor⟩ := Option.isSome_iff_exists.1 hvendor
    obtain ⟨currency, hcurrency⟩ := Option.isSome_iff_exists.1 hcurrency
    exact absurd hd (hnot vendor currency d hvendor hcurrency)

/-- On rows with the right lists, the candidates give the assessment of snapshots whose missing fields are read off
them. -/
theorem RiskRows.Right.assess_some (h : rows.Right) {found : ℕ × List ListedRecord}
    (hfound : rows.candidates c.policy (rows.record U c) = some found) :
    rows.assess U similarity c = .ok
      { id := c.assessmentId
        matchRunId := c.run.id
        policyVersion := c.policy.version
        result := assessDuplicateRisk similarity c.policy (buildFeatureSnapshot U c.run c.purchaseOrder c.invoice)
          ((found.2.map (·.toRiskFeatureRecord)).map recordToSnapshot)
        metrics :=
          { historicalRecordCount := found.1
            candidateRecordCount := found.2.length
            comparisonCount := (((found.2.map (·.toRiskFeatureRecord)).map recordToSnapshot).filter
              (comparable (buildFeatureSnapshot U c.run c.purchaseOrder c.invoice))).length } } := by
  have hright : ∀ f ∈ found.2.map listedToSnapshot, f.Right := by
    intro f hf
    obtain ⟨r, hr, rfl⟩ := List.mem_map.1 hf
    obtain ⟨inWindow, -, rfl⟩ := Option.map_eq_some_iff.1 hfound
    exact h r (List.mem_filter.1 hr).1
  have hsnapshots : (found.2.map listedToSnapshot).map (·.toRiskFeatureSnapshot) =
      (found.2.map (·.toRiskFeatureRecord)).map recordToSnapshot := by
    rw [List.map_map, List.map_map]
    rfl
  have hcount : ((found.2.map listedToSnapshot).filter fun f => f.isComplete &&
      decide (f.matchRunId ≠ c.run.id) && decide (f.documentId ≠ c.run.documentId)).length =
      (((found.2.map (·.toRiskFeatureRecord)).map recordToSnapshot).filter
        (comparable (buildFeatureSnapshot U c.run c.purchaseOrder c.invoice))).length := by
    rw [← hsnapshots]
    conv_rhs => rw [List.filter_map, List.length_map]
    refine congrArg List.length (List.filter_congr fun f hf => ?_)
    rw [isComplete_of_right (hright f hf)]
    rfl
  simp only [RiskRows.assess, hfound, RiskCall.features, hcount,
    assessListed_of_right (right_buildListedSnapshot U c.run c.purchaseOrder c.invoice) hright, hsnapshots]
  rw [if_neg]
  · rfl
  · rintro ⟨s, hs, hown⟩
    exact ne_ownRun hs hown

theorem RiskRows.Right.assess (h : rows.Right) :
    (∃ a, rows.assess U similarity c = .ok a) ∧ WindowInRange c.policy (rows.record U c).toRiskFeatureRecord ∨
      rows.assess U similarity c = .error .overflow ∧
        ¬ WindowInRange c.policy (rows.record U c).toRiskFeatureRecord := by
  rw [← windowCondition_isSome_iff]
  cases hfound : rows.candidates c.policy (rows.record U c) with
  | none =>
    have hwindow := Option.map_eq_none_iff.1 hfound
    refine .inr ⟨by simp only [RiskRows.assess, hfound], ?_⟩
    rw [hwindow]
    simp
  | some found =>
    obtain ⟨inWindow, hwindow, -⟩ := Option.map_eq_some_iff.1 hfound
    refine .inl ⟨⟨_, h.assess_some hfound⟩, ?_⟩
    rw [hwindow]
    rfl

/-- What a call needs to be computed: the run is assessed already, its new row is refused by the columns, or the days
around its invoice date are in range. -/
def RiskRows.Computable (U : Unicode) (rows : RiskRows) (c : RiskCall) : Prop :=
  (∃ a ∈ rows.assessments, a.matchRunId = c.run.id ∧ a.policyVersion = c.policy.version) ∨
    c.run.id ∉ rows.features.map (·.matchRunId) ∧ ¬ (listedRecord (c.features U)).Fits ∨
    WindowInRange c.policy (rows.record U c).toRiskFeatureRecord

theorem findForMatch_isSome : (rows.findForMatch c).isSome = true ↔
    ∃ a ∈ rows.assessments, a.matchRunId = c.run.id ∧ a.policyVersion = c.policy.version := by
  simp [RiskRows.findForMatch]

theorem find_matchRunId_eq_none : rows.features.find? (·.matchRunId = c.run.id) = none ↔
    c.run.id ∉ rows.features.map (·.matchRunId) := by
  simp [List.find?_eq_none]

variable (U similarity c) in
/-- On rows with the right lists a call is refused by the columns, succeeds, or has a window out of range. -/
theorem RiskRows.Right.ensure_cases (h : rows.Right) :
    rows.ensure U similarity c = .error .dataError ∧ c.run.id ∉ rows.features.map (·.matchRunId) ∧
        ¬ (listedRecord (c.features U)).Fits ∨
      (∃ r, rows.ensure U similarity c = .ok r) ∧
        (c.run.id ∈ rows.features.map (·.matchRunId) ∨ (listedRecord (c.features U)).Fits) ∧
        ((∃ a ∈ rows.assessments, a.matchRunId = c.run.id ∧ a.policyVersion = c.policy.version) ∨
          WindowInRange c.policy (rows.record U c).toRiskFeatureRecord) ∨
      rows.ensure U similarity c = .error .overflow ∧ ¬ rows.Computable U c := by
  have hrow : c.run.id ∉ rows.features.map (·.matchRunId) → rows.record U c = listedRecord (c.features U) := by
    intro hnone
    rw [RiskRows.record, find_matchRunId_eq_none.2 hnone, Option.getD_none]
  unfold RiskRows.ensure
  cases hrecord : rows.ensureFeatureRecord U c with
  | error e =>
    have herror := hrecord
    unfold RiskRows.ensureFeatureRecord at herror
    split_ifs at herror with hsome hfits
    obtain rfl := Except.error.inj herror
    have hnone : c.run.id ∉ rows.features.map (·.matchRunId) := by
      rw [← find_matchRunId_eq_none]
      simpa using hsome
    exact .inl ⟨rfl, hnone, hrow hnone ▸ hfits⟩
  | ok rows' =>
    have hfits : c.run.id ∈ rows.features.map (·.matchRunId) ∨ (listedRecord (c.features U)).Fits := by
      obtain ⟨-, ⟨hsome, -⟩ | ⟨hnone, hfits, -⟩⟩ := ensureFeatureRecord_cases hrecord
      · by_contra hnot
        rw [find_matchRunId_eq_none.2 (not_or.1 hnot).1] at hsome
        cases hsome
      · exact .inr (hrow (find_matchRunId_eq_none.1 hnone) ▸ hfits)
    cases hfound : rows.findForMatch c with
    | some a =>
      refine .inr (.inl ⟨⟨_, rfl⟩, hfits, .inl (findForMatch_isSome.1 ?_)⟩)
      rw [hfound]
      rfl
    | none =>
      have hnew : ¬ ∃ a ∈ rows.assessments, a.matchRunId = c.run.id ∧ a.policyVersion = c.policy.version := by
        rw [← findForMatch_isSome, hfound]
        simp
      simp only
      rcases (h.ensureFeatureRecord hrecord).assess with ⟨⟨a, ha⟩, hwindow⟩ | ⟨hoverflow, hwindow⟩
      · rw [record_ensureFeatureRecord hrecord] at hwindow
        exact .inr (.inl ⟨⟨_, by rw [ha]; rfl⟩, hfits, .inr hwindow⟩)
      · rw [record_ensureFeatureRecord hrecord] at hwindow
        refine .inr (.inr ⟨by rw [hoverflow]; rfl, ?_⟩)
        rintro (hsome | hrefused | hrange)
        · exact hnew hsome
        · exact hfits.elim hrefused.1 hrefused.2
        · exact hwindow hrange

end

section

variable {E : MatchingEnv} {db : Tables} {rows rows' : RiskRows} {U : Unicode} {c : RiskCall}

theorem candidates_ensureFeatureRecord (h : rows.ensureFeatureRecord U c = .ok rows') :
    rows'.candidates c.policy (rows.record U c) = rows.candidates c.policy (rows.record U c) := by
  obtain ⟨-, ⟨-, rfl⟩ | ⟨-, -, hfeatures⟩⟩ := ensureFeatureRecord_cases h
  · rfl
  · have hself : baseCondition (rows.record U c).toRiskFeatureRecord (rows.record U c).toRiskFeatureRecord = false := by
      simp [baseCondition]
    simp [RiskRows.candidates, hfeatures, List.filter_append, hself]

theorem candidates_map (hfeatures : rows.features.map (·.toRiskFeatureRecord) = db.features)
    {policy : DuplicateRiskPolicy} {current : ListedRecord} {found : ℕ × List ListedRecord}
    (h : rows.candidates policy current = some found) :
    candidateRecords policy db.features current.toRiskFeatureRecord =
      some (found.1, found.2.map (·.toRiskFeatureRecord)) := by
  obtain ⟨inWindow, hwindow, rfl⟩ := Option.map_eq_some_iff.1 h
  rw [candidateRecords, hwindow, ← hfeatures, Option.map_some, List.filter_map, List.filter_map, List.length_map]
  rfl

theorem record_map (hfeatures : rows.features.map (·.toRiskFeatureRecord) = db.features) :
    (db.features.find? (·.matchRunId = c.run.id)).getD
        (featureRecord (buildFeatureSnapshot U c.run c.purchaseOrder c.invoice)) =
      (rows.record U c).toRiskFeatureRecord := by
  rw [← hfeatures, List.find?_map, RiskRows.record]
  unfold Function.comp
  cases rows.features.find? (·.matchRunId = c.run.id) with
  | none => rfl
  | some row => rfl

theorem RiskRows.Right.ensureRisk (hright : rows.Right)
    (hfeatures : rows.features.map (·.toRiskFeatureRecord) = db.features) (hassessments : rows.assessments = db.assessments)
    (hpolicy : c.policy = E.riskPolicy) {r : RiskRows × RiskAssessment × Bool}
    (h : rows.ensure E.text.toUnicode E.similarity c = .ok r) :
    ∃ added assessed, E.ensureRisk db c.run c.purchaseOrder c.invoice c.assessmentId = some (added, assessed, r.2.1) ∧
      r.1.features.map (·.toRiskFeatureRecord) = db.features ++ added ∧
      r.1.assessments = db.assessments ++ assessed := by
  unfold RiskRows.ensure at h
  cases hensured : rows.ensureFeatureRecord E.text.toUnicode c with
  | error e =>
    rw [hensured] at h
    cases h
  | ok rows' =>
    have hsome : (db.features.find? (·.matchRunId = c.run.id)).isSome =
        (rows.features.find? (·.matchRunId = c.run.id)).isSome := by
      rw [← hfeatures, List.find?_map, Option.isSome_map]
      rfl
    obtain ⟨hsame, hadded⟩ := ensureFeatureRecord_cases hensured
    have hadded : rows'.features.map (·.toRiskFeatureRecord) = db.features ++
        if (db.features.find? (·.matchRunId = c.run.id)).isSome then []
        else [featureRecord (buildFeatureSnapshot E.text.toUnicode c.run c.purchaseOrder c.invoice)] := by
      rw [hsome]
      rcases hadded with ⟨hsome, rfl⟩ | ⟨hnone, -, happended⟩
      · rw [if_pos hsome, List.append_nil, hfeatures]
      · rw [happended, List.map_append, hfeatures, hnone, RiskRows.record, hnone]
        rfl
    have hfound : rows.findForMatch c = db.assessments.find? fun a =>
        a.matchRunId = c.run.id ∧ a.policyVersion = E.riskPolicy.version := by
      rw [RiskRows.findForMatch, hassessments, hpolicy]
    rw [hensured] at h
    unfold MatchingEnv.ensureRisk
    simp only
    rw [← hfound, record_map hfeatures]
    cases hfor : rows.findForMatch c with
    | some a =>
      rw [hfor] at h
      obtain rfl := Except.ok.inj h
      exact ⟨_, [], rfl, hadded, by simp [hsame, hassessments]⟩
    | none =>
      rw [hfor] at h
      simp only at h
      have hcandidates : rows'.candidates c.policy (rows'.record E.text.toUnicode c) =
          rows.candidates c.policy (rows.record E.text.toUnicode c) := by
        rw [record_ensureFeatureRecord hensured, candidates_ensureFeatureRecord hensured]
      cases hcand : rows.candidates c.policy (rows.record E.text.toUnicode c) with
      | none =>
        rw [hcand] at hcandidates
        simp only [RiskRows.assess, hcandidates] at h
        cases h
      | some found =>
        rw [hcand] at hcandidates
        rw [(hright.ensureFeatureRecord hensured).assess_some hcandidates] at h
        obtain rfl := Except.ok.inj h
        refine ⟨_, _, ?_, hadded, by rw [hsame, hassessments]⟩
        rw [assessRun, ← hpolicy, candidates_map hfeatures hcand]
        simp only [Option.map_some, List.length_map]
        rfl

end

/-- On the rows that any calls have written, a call raises no arithmetic error and fails no assertion exactly when the
days around the invoice date are in range or are not computed. -/
theorem risk_computable_iff (U : Unicode) (similarity : String → String → Decimal) (calls : List RiskCall) (c : RiskCall) :
    ((RiskRows.after U similarity calls).ensure U similarity c ≠ .error .overflow ∧
      (RiskRows.after U similarity calls).ensure U similarity c ≠ .error .assertion) ↔
    (RiskRows.after U similarity calls).Computable U c := by
  have hright : (RiskRows.after U similarity calls).Right := right_after calls
  rcases hright.ensure_cases U similarity c with
    ⟨hdata, hrefused⟩ | ⟨⟨r, hr⟩, -, hok⟩ | ⟨hoverflow, hnot⟩
  · rw [hdata]
    exact iff_of_true ⟨by simp, by simp⟩ (.inr (.inl hrefused))
  · rw [hr]
    exact iff_of_true ⟨by simp, by simp⟩ (hok.imp_right .inr)
  · rw [hoverflow]
    exact iff_of_false (by simp) hnot

def lateCall : RiskCall where
  policy := .default
  run := reviewedRun
  purchaseOrder := tapPurchase
  invoice := { filterInvoice with invoiceDate := printed ⟨3652056, by norm_num, by norm_num⟩ "28/12/9999" }
  assessmentId := Uuid.ofNat 1

/-- The week after the invoice is not in the calendar, and the call raises. -/
theorem lateCall_overflows :
    (RiskRows.after asciiTextOps.toUnicode oneOfThirteen []).ensure asciiTextOps.toUnicode oneOfThirteen lateCall =
      .error .overflow ∧
    ¬ ((RiskRows.after asciiTextOps.toUnicode oneOfThirteen []).ensure asciiTextOps.toUnicode oneOfThirteen lateCall ≠
        .error .overflow ∧
      (RiskRows.after asciiTextOps.toUnicode oneOfThirteen []).ensure asciiTextOps.toUnicode oneOfThirteen lateCall ≠
        .error .assertion) := by
  have hright : (RiskRows.after asciiTextOps.toUnicode oneOfThirteen []).Right := right_after []
  have hfits : (listedRecord (lateCall.features asciiTextOps.toUnicode)).Fits := by decide +kernel
  have hfails : ((RiskRows.after asciiTextOps.toUnicode oneOfThirteen []).ensure asciiTextOps.toUnicode oneOfThirteen
      lateCall).isOk = false := by decide +kernel
  rcases hright.ensure_cases asciiTextOps.toUnicode oneOfThirteen lateCall with
    ⟨-, -, hnot⟩ | ⟨⟨r, hr⟩, -⟩ | ⟨hoverflow, -⟩
  · exact absurd hfits hnot
  · rw [hr] at hfails
    cases hfails
  · exact ⟨hoverflow, fun h => h.1 hoverflow⟩

end InvoiceOps
