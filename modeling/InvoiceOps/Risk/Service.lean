import InvoiceOps.Matching.Assignment
import InvoiceOps.Models
import InvoiceOps.Risk.Engine

/-! The duplicate-risk service (`risk/service.py`, `risk/normalization.py`): the features of a match,
the rows it compares them with, and the assessment it stores. The rows are preselected in the database
by a disjunction that is built from the current record; `prefilter_exact_iff` says when this loses no
signal. -/

namespace InvoiceOps

open Calendar

def normalizeVendor (U : Unicode) (value : String) : String :=
  String.ofList (Text.joinWords ((U.casefold (U.nfkc value)).toList.map fun c => if U.isAlnum c then c else ' '))

def normalizeInvoiceNumber (U : Unicode) (value : String) : String :=
  String.ofList ((U.casefold (U.nfkc value)).toList.filter U.isAlnum)

/-- A present text that is not empty, as Python's truth test has it. -/
def nonBlank (s : Option String) : Option String := s.filter (· ≠ "")

theorem nonBlank_ne (s : Option String) : nonBlank s ≠ some "" := by
  intro h
  simpa using (Option.filter_eq_some_iff.1 h).2

/-- An empty currency text counts as a currency; an empty vendor or number counts as missing. -/
def buildFeatureSnapshot (U : Unicode) (run : MatchRun) (po : PurchaseOrder) (invoice : Invoice) :
    RiskFeatureSnapshot where
  normalizedVendor := nonBlank ((nonBlank po.vendorName).map (normalizeVendor U))
  normalizedInvoiceNumber := nonBlank (invoice.invoiceNumber.extractedValue.map (normalizeInvoiceNumber U))
  invoiceDate := invoice.invoiceDate.extractedValue
  currency := invoice.currency.extractedValue.map U.upper
  total := invoice.total.extractedValue.map Decimal.text
  purchaseOrderId := run.purchaseOrderId
  documentId := run.documentId
  extractionRunId := run.extractionRunId
  matchRunId := run.id
  vendor_nonblank := nonBlank_ne _
  number_nonblank := nonBlank_ne _
  total_numeric := by
    intro s hs
    obtain ⟨d, -, rfl⟩ := Option.map_eq_some_iff.1 hs
    obtain ⟨d', hd', -⟩ := Decimal.ofText_text d
    rw [hd']
    rfl

/-- A stored feature row. -/
structure RiskFeatureRecord where
  matchRunId : Uuid
  normalizedVendor : Option String
  normalizedInvoiceNumber : Option String
  invoiceDate : Option Date
  currency : Option String
  total : Option Decimal
  purchaseOrderId : Uuid
  documentId : Uuid
  extractionRunId : Uuid
  vendor_nonblank : normalizedVendor ≠ some ""
  number_nonblank : normalizedInvoiceNumber ≠ some ""
deriving DecidableEq, Repr

/-- The row `_ensure_feature_record` makes. -/
def featureRecord (f : RiskFeatureSnapshot) : RiskFeatureRecord where
  matchRunId := f.matchRunId
  normalizedVendor := f.normalizedVendor
  normalizedInvoiceNumber := f.normalizedInvoiceNumber
  invoiceDate := f.invoiceDate
  currency := f.currency
  total := f.total.bind Decimal.ofText
  purchaseOrderId := f.purchaseOrderId
  documentId := f.documentId
  extractionRunId := f.extractionRunId
  vendor_nonblank := f.vendor_nonblank
  number_nonblank := f.number_nonblank

def recordToSnapshot (r : RiskFeatureRecord) : RiskFeatureSnapshot where
  normalizedVendor := r.normalizedVendor
  normalizedInvoiceNumber := r.normalizedInvoiceNumber
  invoiceDate := r.invoiceDate
  currency := r.currency
  total := r.total.map Decimal.text
  purchaseOrderId := r.purchaseOrderId
  documentId := r.documentId
  extractionRunId := r.extractionRunId
  matchRunId := r.matchRunId
  vendor_nonblank := r.vendor_nonblank
  number_nonblank := r.number_nonblank
  total_numeric := by
    intro s hs
    obtain ⟨d, -, rfl⟩ := Option.map_eq_some_iff.1 hs
    obtain ⟨d', hd', -⟩ := Decimal.ofText_text d
    rw [hd']
    rfl

/-- The days `window` before and after a date; the source raises when one is out of range. -/
def dateWindow (window : ℕ) (d : Date) : Option (ℕ × ℕ) :=
  if window < d.ordinal ∧ d.ordinal + window ≤ 3652059 then some (d.ordinal - window, d.ordinal + window)
  else none

/-- The third disjunct is only there when vendor and currency are not empty and there is a date. -/
def windowCondition (window : ℕ) (current : RiskFeatureRecord) : Option (RiskFeatureRecord → Bool) :=
  match nonBlank current.normalizedVendor, nonBlank current.currency, current.invoiceDate with
  | some vendor, some currency, some d =>
    (dateWindow window d).map fun w r =>
      decide (r.normalizedVendor = some vendor) && decide (r.currency = some currency) &&
        (r.invoiceDate.any fun e => w.1 ≤ e.ordinal && e.ordinal ≤ w.2)
  | _, _, _ => some fun _ => false

def numberCondition (current r : RiskFeatureRecord) : Bool :=
  match nonBlank current.normalizedVendor, nonBlank current.normalizedInvoiceNumber with
  | some vendor, some number =>
    decide (r.normalizedVendor = some vendor) && decide (r.normalizedInvoiceNumber = some number)
  | _, _ => false

def baseCondition (current r : RiskFeatureRecord) : Bool :=
  decide (r.matchRunId ≠ current.matchRunId) && decide (r.documentId ≠ current.documentId)

def plausibleRow (inWindow : RiskFeatureRecord → Bool) (current r : RiskFeatureRecord) : Bool :=
  decide (r.purchaseOrderId = current.purchaseOrderId) || numberCondition current r || inWindow r

/-- `_candidate_records`: the number of rows of other runs and documents, and the plausible ones
among them, from the rows in the order the query returns them. -/
def candidateRecords (policy : DuplicateRiskPolicy) (store : List RiskFeatureRecord)
    (current : RiskFeatureRecord) : Option (ℕ × List RiskFeatureRecord) :=
  (windowCondition policy.dateWindowDays current).map fun inWindow =>
    ((store.filter (baseCondition current)).length,
      store.filter fun r => baseCondition current r && plausibleRow inWindow current r)

structure RiskCandidateMetrics where
  historicalRecordCount : ℕ
  candidateRecordCount : ℕ
  comparisonCount : ℕ
deriving DecidableEq, Repr

structure RiskAssessment where
  id : Uuid
  matchRunId : Uuid
  policyVersion : String
  result : RiskAssessmentResult
  metrics : RiskCandidateMetrics

/-- The assessment `ensure` makes for a run without one, from the rows it reads. -/
def assessRun (similarity : String → String → Decimal) (policy : DuplicateRiskPolicy)
    (store : List RiskFeatureRecord) (record : RiskFeatureRecord) (features : RiskFeatureSnapshot) (id : Uuid) :
    Option RiskAssessment :=
  (candidateRecords policy store record).map fun found =>
    let historical := found.2.map recordToSnapshot
    { id := id
      matchRunId := features.matchRunId
      policyVersion := policy.version
      result := assessDuplicateRisk similarity policy features historical
      metrics :=
        { historicalRecordCount := found.1
          candidateRecordCount := found.2.length
          comparisonCount := (historical.filter (comparable features)).length } }

/-- The stored rows; a run has at most one. -/
structure FeatureStore where
  records : List RiskFeatureRecord
  runs : (records.map (·.matchRunId)).Nodup

section

variable {similarity : String → String → Decimal} {policy : DuplicateRiskPolicy}
  {features : RiskFeatureSnapshot} {r : RiskFeatureRecord}

theorem complete_iff {f : RiskFeatureSnapshot} : f.complete = true ↔
    f.normalizedVendor.isSome ∧ f.normalizedInvoiceNumber.isSome ∧ f.invoiceDate.isSome ∧
      f.currency.isSome ∧ f.total.isSome := by
  unfold RiskFeatureSnapshot.complete RiskFeatureSnapshot.missingFields missingFeatures
  cases f.normalizedVendor <;> cases f.normalizedInvoiceNumber <;> cases f.invoiceDate <;>
    cases f.currency <;> cases f.total <;> simp

theorem nonBlank_of_ne {s : Option String} {v : String} (hs : s = some v) (hne : s ≠ some "") :
    nonBlank s = some v := by
  subst hs
  have hv : v ≠ "" := fun h => hne (by rw [h])
  simp [nonBlank, Option.filter, hv]

theorem numberCondition_iff (hcomplete : features.complete = true) :
    numberCondition (featureRecord features) r = true ↔
      sameVendor features (recordToSnapshot r) ∧ sameNumber features (recordToSnapshot r) := by
  obtain ⟨hv, hn, -⟩ := complete_iff.1 hcomplete
  obtain ⟨v, hv⟩ := Option.isSome_iff_exists.1 hv
  obtain ⟨n, hn⟩ := Option.isSome_iff_exists.1 hn
  have hvendor : nonBlank (featureRecord features).normalizedVendor = some v :=
    nonBlank_of_ne hv features.vendor_nonblank
  have hnumber : nonBlank (featureRecord features).normalizedInvoiceNumber = some n :=
    nonBlank_of_ne hn features.number_nonblank
  simp only [numberCondition, hvendor, hnumber, sameVendor, sameNumber, recordToSnapshot, hv, hn,
    Bool.and_eq_true, decide_eq_true_eq]
  exact and_congr eq_comm eq_comm

/-- With a currency that is not empty, the window condition is the one the comparison makes. -/
theorem windowCondition_currency (hcomplete : features.complete = true) (hblank : features.currency ≠ some "")
    {inWindow : RiskFeatureRecord → Bool}
    (h : windowCondition policy.dateWindowDays (featureRecord features) = some inWindow)
    (hr : (recordToSnapshot r).invoiceDate.isSome) :
    inWindow r = true ↔ sameVendor features (recordToSnapshot r) ∧
      features.currency = (recordToSnapshot r).currency ∧
      dateDistance features (recordToSnapshot r) ≤ policy.dateWindowDays := by
  obtain ⟨hv, -, hd, hc, -⟩ := complete_iff.1 hcomplete
  obtain ⟨v, hv⟩ := Option.isSome_iff_exists.1 hv
  obtain ⟨d, hd⟩ := Option.isSome_iff_exists.1 hd
  obtain ⟨c, hc⟩ := Option.isSome_iff_exists.1 hc
  obtain ⟨e, he⟩ := Option.isSome_iff_exists.1 hr
  have hvendor : nonBlank (featureRecord features).normalizedVendor = some v :=
    nonBlank_of_ne hv features.vendor_nonblank
  have hcurrency : nonBlank (featureRecord features).currency = some c := nonBlank_of_ne hc hblank
  have hdate : (featureRecord features).invoiceDate = some d := hd
  have hrdate : r.invoiceDate = some e := he
  simp only [windowCondition, hvendor, hcurrency, hdate, Option.map_eq_some_iff] at h
  obtain ⟨w, hw, rfl⟩ := h
  unfold dateWindow at hw
  split_ifs at hw with hrange
  obtain rfl := Option.some.inj hw
  have hdist : dateDistance features (recordToSnapshot r) = ((d.ordinal : ℤ) - e.ordinal).natAbs := by
    simp [dateDistance, hd, he]
  have hbetween : d.ordinal - policy.dateWindowDays ≤ e.ordinal ∧ e.ordinal ≤ d.ordinal + policy.dateWindowDays ↔
      dateDistance features (recordToSnapshot r) ≤ policy.dateWindowDays := by
    rw [hdist]
    omega
  simp only [hrdate, Option.any_some, Bool.and_eq_true, decide_eq_true_eq, hbetween, sameVendor,
    recordToSnapshot, hv, hc]
  rw [and_assoc, eq_comm, @eq_comm _ (some c)]

theorem windowCondition_blank (hblank : features.currency = some "") :
    windowCondition policy.dateWindowDays (featureRecord features) = some fun _ => false := by
  have hcurrency : nonBlank (featureRecord features).currency = none := by
    have : (featureRecord features).currency = some "" := hblank
    simp [nonBlank, this, Option.filter]
  unfold windowCondition
  rw [hcurrency]
  cases nonBlank (featureRecord features).normalizedVendor <;> rfl

theorem compareFeatures_eq_nil {reference : RiskFeatureSnapshot} :
    compareFeatures similarity policy features reference = [] ↔
      ¬ (sameVendor features reference ∧ sameNumber features reference) ∧
      ¬ (features.purchaseOrderId = reference.purchaseOrderId ∧ sameNumber features reference) ∧
      ¬ nearDuplicate similarity policy features reference := by
  have hone : ∀ {p : Prop} [Decidable p] {s : RiskSignalDraft}, (if p then [s] else []) = [] ↔ ¬ p := by
    intro p _ s
    by_cases hp : p <;> simp [hp]
  have htwo : ∀ {p q : Prop} [Decidable p] [Decidable q] {s t : RiskSignalDraft},
      (if p then [s] else if q then [t] else []) = [] ↔ ¬ p ∧ ¬ q := by
    intro p q _ _ s t
    by_cases hp : p <;> by_cases hq : q <;> simp [hp, hq]
  unfold compareFeatures
  simp only [List.append_eq_nil_iff, hone, htwo]
  refine ⟨fun h => ⟨h.1.1.2, h.1.2, h.2⟩, fun h => ⟨⟨⟨fun he => h.1 ⟨he.1, he.2.1⟩, h.1⟩, h.2.1⟩, h.2.2⟩⟩

/-- A near duplicate with neither the purchase order nor the number of the current invoice. -/
def OnlyNear (similarity : String → String → Decimal) (policy : DuplicateRiskPolicy)
    (features : RiskFeatureSnapshot) (r : RiskFeatureRecord) : Prop :=
  comparable features (recordToSnapshot r) = true ∧
    nearDuplicate similarity policy features (recordToSnapshot r) ∧
    r.purchaseOrderId ≠ features.purchaseOrderId ∧
    r.normalizedInvoiceNumber ≠ features.normalizedInvoiceNumber

theorem baseCondition_of_comparable (h : comparable features (recordToSnapshot r) = true) :
    baseCondition (featureRecord features) r = true := by
  simp only [comparable, Bool.and_eq_true, decide_eq_true_eq] at h
  simp only [baseCondition, Bool.and_eq_true, decide_eq_true_eq]
  exact ⟨h.1.2, h.2⟩

/-- A row that is left out although the comparison would signal it is a near duplicate of an invoice
with an empty currency text. -/
theorem compareFeatures_of_left_out {inWindow : RiskFeatureRecord → Bool}
    (hcomplete : features.complete = true)
    (hwindow : windowCondition policy.dateWindowDays (featureRecord features) = some inWindow)
    (hcomp : comparable features (recordToSnapshot r) = true)
    (hout : plausibleRow inWindow (featureRecord features) r = false)
    (hnone : features.currency = some "" → ¬ OnlyNear similarity policy features r) :
    compareFeatures similarity policy features (recordToSnapshot r) = [] := by
  simp only [plausibleRow, Bool.or_eq_false_iff, decide_eq_false_iff_not] at hout
  obtain ⟨⟨hpo, hnumber⟩, hin⟩ := hout
  have hvn : ¬ (sameVendor features (recordToSnapshot r) ∧ sameNumber features (recordToSnapshot r)) := by
    rw [← numberCondition_iff hcomplete, hnumber]
    exact Bool.false_ne_true
  have hrcomplete : (recordToSnapshot r).complete = true := by
    simp only [comparable, Bool.and_eq_true] at hcomp
    exact hcomp.1.1
  rw [compareFeatures_eq_nil]
  refine ⟨hvn, fun h => hpo h.1.symm, fun hnear => ?_⟩
  by_cases hblank : features.currency = some ""
  · refine hnone hblank ⟨hcomp, hnear, hpo, fun hsame => hvn ⟨hnear.2.1, hsame.symm⟩⟩
  · have hw := windowCondition_currency hcomplete hblank hwindow (complete_iff.1 hrcomplete).2.2.1
    rw [hin] at hw
    exact Bool.false_ne_true (hw.2 ⟨hnear.2.1, hnear.2.2.1, hnear.2.2.2.2.1⟩)

theorem mem_signals {historical : List RiskFeatureSnapshot} (hcomplete : features.complete = true)
    (hruns : (historical.map (·.matchRunId)).Nodup) {s : RiskSignalDraft} :
    s ∈ (assessDuplicateRisk similarity policy features historical).signals ↔
      ∃ ref ∈ historical, comparable features ref = true ∧ s ∈ compareFeatures similarity policy features ref := by
  have hkeys : ((comparisonSignals similarity policy features historical).map (·.key)).Nodup :=
    nodup_key_comparisonSignals hruns
  simp only [assessDuplicateRisk, hcomplete, if_true, deduplicate_of_nodup hkeys]
  rw [(List.perm_insertionSort _ _).mem_iff, mem_comparisonSignals]

theorem nodup_runs {rows : List RiskFeatureRecord} (h : (rows.map (·.matchRunId)).Nodup) :
    ((rows.map recordToSnapshot).map (·.matchRunId)).Nodup := by
  simpa [recordToSnapshot, Function.comp_def] using h

/-- The rows the preselection returns. -/
def selectedRows (store : List RiskFeatureRecord) (features : RiskFeatureSnapshot)
    (inWindow : RiskFeatureRecord → Bool) : List RiskFeatureRecord :=
  store.filter fun r => baseCondition (featureRecord features) r && plausibleRow inWindow (featureRecord features) r

theorem needsReview_of_exactDuplicate {rows : List RiskFeatureRecord} {id : Uuid} {a : RiskAssessment}
    (h : assessRun similarity policy rows (featureRecord features) features id = some a)
    (hruns : (rows.map (·.matchRunId)).Nodup) (hr : r ∈ rows) (hcomplete : features.complete = true)
    (hcomp : comparable features (recordToSnapshot r) = true)
    (hexact : exactDuplicate policy features (recordToSnapshot r)) : a.result.disposition = .needsReview := by
  obtain ⟨found, hfound, rfl⟩ := Option.map_eq_some_iff.1 h
  obtain ⟨inWindow, -, rfl⟩ := Option.map_eq_some_iff.1 hfound
  have hselected : r ∈ selectedRows rows features inWindow := by
    refine List.mem_filter.2 ⟨hr, ?_⟩
    have hnumber := (numberCondition_iff hcomplete).2 ⟨hexact.1, hexact.2.1⟩
    simp [baseCondition_of_comparable hcomp, plausibleRow, hnumber]
  have hne : compareFeatures similarity policy features (recordToSnapshot r) ≠ [] := fun hnil =>
    (compareFeatures_eq_nil.1 hnil).1 ⟨hexact.1, hexact.2.1⟩
  obtain ⟨s, hs⟩ := List.exists_mem_of_ne_nil _ hne
  have hkeys : ((selectedRows rows features inWindow).map (·.matchRunId)).Nodup :=
    hruns.sublist (List.filter_sublist.map _)
  exact disposition_of_signal ((mem_signals hcomplete (nodup_runs hkeys)).2
    ⟨_, List.mem_map_of_mem hselected, hcomp, hs⟩) (compareFeatures_keys.2 s hs).2

theorem nodup_selectedRows {store : FeatureStore} {inWindow : RiskFeatureRecord → Bool} :
    ((selectedRows store.records features inWindow).map (·.matchRunId)).Nodup :=
  store.runs.sublist (List.filter_sublist.map _)

theorem assess_selectedRows {store : FeatureStore} {inWindow : RiskFeatureRecord → Bool}
    (hwindow : windowCondition policy.dateWindowDays (featureRecord features) = some inWindow)
    (h : features.complete = true → features.currency = some "" →
      ∀ r ∈ store.records, ¬ OnlyNear similarity policy features r) :
    assessDuplicateRisk similarity policy features ((selectedRows store.records features inWindow).map recordToSnapshot) =
      assessDuplicateRisk similarity policy features (store.records.map recordToSnapshot) := by
  unfold assessDuplicateRisk
  by_cases hcomplete : features.complete = true
  · have hsignals : comparisonSignals similarity policy features
        ((selectedRows store.records features inWindow).map recordToSnapshot) =
        comparisonSignals similarity policy features (store.records.map recordToSnapshot) := by
      unfold comparisonSignals selectedRows
      rw [List.flatMap_map, List.flatMap_map]
      refine Lists.flatMap_filter_of_nil fun r hr hout => ?_
      by_cases hcomp : comparable features (recordToSnapshot r) = true
      · rw [baseCondition_of_comparable hcomp, Bool.true_and] at hout
        rw [if_pos hcomp]
        exact compareFeatures_of_left_out hcomplete hwindow hcomp hout fun hblank => h hcomplete hblank r hr
      · rw [if_neg hcomp]
    rw [hsignals]
  · simp [hcomplete]

/-- A near duplicate of an invoice with an empty currency text is left out, and its signal with it. -/
theorem assess_selectedRows_ne {store : FeatureStore} (hcomplete : features.complete = true) {inWindow : RiskFeatureRecord → Bool}
    (hwindow : windowCondition policy.dateWindowDays (featureRecord features) = some inWindow)
    (hblank : features.currency = some "") (hr : r ∈ store.records) (hnear : OnlyNear similarity policy features r) :
    assessDuplicateRisk similarity policy features ((selectedRows store.records features inWindow).map recordToSnapshot) ≠
      assessDuplicateRisk similarity policy features (store.records.map recordToSnapshot) := by
  intro heq
  obtain ⟨hcomp, hdup, hpo, hnumber⟩ := hnear
  have hne : compareFeatures similarity policy features (recordToSnapshot r) ≠ [] := fun hnil =>
    (compareFeatures_eq_nil.1 hnil).2.2 hdup
  obtain ⟨s, hs⟩ := List.exists_mem_of_ne_nil _ hne
  have hall : s ∈ (assessDuplicateRisk similarity policy features (store.records.map recordToSnapshot)).signals :=
    (mem_signals hcomplete (nodup_runs store.runs)).2 ⟨_, List.mem_map_of_mem hr, hcomp, hs⟩
  rw [← heq, mem_signals hcomplete (nodup_runs nodup_selectedRows)] at hall
  obtain ⟨ref, href, -, hs'⟩ := hall
  obtain ⟨r', hr', rfl⟩ := List.mem_map.1 href
  obtain ⟨hmem, hsel⟩ := List.mem_filter.1 hr'
  have hrun : r'.matchRunId = r.matchRunId :=
    Option.some.inj ((compareFeatures_keys.2 s hs').1.symm.trans (compareFeatures_keys.2 s hs).1)
  obtain rfl := List.inj_on_of_nodup_map store.runs hmem hr hrun
  rw [windowCondition_blank hblank, Option.some.injEq] at hwindow
  simp only [plausibleRow, ← hwindow, Bool.or_false, Bool.and_eq_true, Bool.or_eq_true, decide_eq_true_eq] at hsel
  rcases hsel.2 with hsame | hsame
  · exact hpo hsame
  · exact hnumber ((numberCondition_iff hcomplete).1 hsame).2.symm

theorem windowCondition_isSome
    (hdate : ∀ d, features.invoiceDate = some d → (dateWindow policy.dateWindowDays d).isSome) :
    ∃ w, windowCondition policy.dateWindowDays (featureRecord features) = some w := by
  unfold windowCondition
  split
  · next hd =>
    obtain ⟨w, hw⟩ := Option.isSome_iff_exists.1 (hdate _ hd)
    exact ⟨_, by rw [hw, Option.map_some]⟩
  · exact ⟨_, rfl⟩

end

/-- The preselected rows give the same assessment as all rows, in whatever order they are returned,
exactly unless the invoice is complete with an empty currency text and some row is a near duplicate of
it that shares neither purchase order nor number. -/
theorem prefilter_exact_iff (similarity : String → String → Decimal) (policy : DuplicateRiskPolicy)
    (store : FeatureStore) (features : RiskFeatureSnapshot)
    (hdate : ∀ d, features.invoiceDate = some d → (dateWindow policy.dateWindowDays d).isSome) :
    ∃ count, ∃ rows : List RiskFeatureRecord,
      candidateRecords policy store.records (featureRecord features) = some (count, rows) ∧
      ((assessDuplicateRisk similarity policy features (rows.map recordToSnapshot) =
          assessDuplicateRisk similarity policy features (store.records.map recordToSnapshot) ∧
        ∀ rows' : List RiskFeatureRecord, rows'.Perm rows →
          assessDuplicateRisk similarity policy features (rows'.map recordToSnapshot) =
            assessDuplicateRisk similarity policy features (rows.map recordToSnapshot)) ↔
      ¬ (features.complete = true ∧ features.currency = some "" ∧
        ∃ r ∈ store.records, OnlyNear similarity policy features r)) := by
  obtain ⟨inWindow, hwindow⟩ := windowCondition_isSome hdate
  refine ⟨_, selectedRows store.records features inWindow, by rw [candidateRecords, hwindow]; rfl, ?_⟩
  refine ⟨fun h hlost => ?_, fun h => ⟨?_, fun rows' hperm => ?_⟩⟩
  · obtain ⟨hcomplete, hblank, r, hr, hnear⟩ := hlost
    exact assess_selectedRows_ne hcomplete hwindow hblank hr hnear h.1
  · refine assess_selectedRows hwindow fun hcomplete hblank r hr hnear => ?_
    exact h ⟨hcomplete, hblank, r, hr, hnear⟩
  · have hruns := (hperm.map (·.matchRunId)).nodup_iff.2 nodup_selectedRows
    exact assessDuplicateRisk_perm (hperm.map recordToSnapshot) (nodup_runs hruns)

/-- A stored row of purchase order `po` and document `doc`, dated 30 July 2021, without a currency
text. -/
def blankCurrencyRecord (number : String) (hnumber : some number ≠ some "") (po doc run : ℕ) : RiskFeatureRecord where
  matchRunId := Uuid.ofNat run
  normalizedVendor := some "acme"
  normalizedInvoiceNumber := some number
  invoiceDate := some ⟨738001, by norm_num, by norm_num⟩
  currency := some ""
  total := some ⟨false, 1000, -2⟩
  purchaseOrderId := Uuid.ofNat po
  documentId := Uuid.ofNat doc
  extractionRunId := Uuid.ofNat 0
  vendor_nonblank := by decide
  number_nonblank := hnumber

/-- The similarity of two numbers of thirteen characters that differ in one. -/
def oneOfThirteen : String → String → Decimal := fun _ _ => ⟨false, 923076923076923, -15⟩

def blankCurrencyStore : FeatureStore where
  records := [blankCurrencyRecord "inv2024000002" (by decide) 11 21 31]
  runs := by decide

def blankCurrencyFeatures : RiskFeatureSnapshot :=
  recordToSnapshot (blankCurrencyRecord "inv2024000001" (by decide) 10 20 30)

/-- The near duplicate is not among the preselected rows: the invoice is clear where a comparison with
all rows asks for a review. -/
theorem blankCurrency_cleared :
    (∀ d, blankCurrencyFeatures.invoiceDate = some d →
      (dateWindow DuplicateRiskPolicy.default.dateWindowDays d).isSome) ∧
    candidateRecords .default blankCurrencyStore.records (featureRecord blankCurrencyFeatures) = some (1, []) ∧
    (assessDuplicateRisk oneOfThirteen .default blankCurrencyFeatures []).disposition = .clear ∧
    (assessDuplicateRisk oneOfThirteen .default blankCurrencyFeatures
      (blankCurrencyStore.records.map recordToSnapshot)).disposition = .needsReview := by
  refine ⟨?_, by decide +kernel, by decide +kernel, by decide +kernel⟩
  intro d hd
  obtain rfl := Option.some.inj hd
  decide

theorem prefilter_exact_iff_blankCurrency :
    ∃ count, ∃ rows : List RiskFeatureRecord, candidateRecords .default blankCurrencyStore.records
        (featureRecord blankCurrencyFeatures) = some (count, rows) ∧
      ((assessDuplicateRisk oneOfThirteen .default blankCurrencyFeatures (rows.map recordToSnapshot) =
          assessDuplicateRisk oneOfThirteen .default blankCurrencyFeatures
            (blankCurrencyStore.records.map recordToSnapshot) ∧
        ∀ rows' : List RiskFeatureRecord, rows'.Perm rows →
          assessDuplicateRisk oneOfThirteen .default blankCurrencyFeatures (rows'.map recordToSnapshot) =
            assessDuplicateRisk oneOfThirteen .default blankCurrencyFeatures (rows.map recordToSnapshot)) ↔
      ¬ (blankCurrencyFeatures.complete = true ∧ blankCurrencyFeatures.currency = some "" ∧
        ∃ r ∈ blankCurrencyStore.records, OnlyNear oneOfThirteen .default blankCurrencyFeatures r)) := by
  refine prefilter_exact_iff oneOfThirteen .default blankCurrencyStore blankCurrencyFeatures fun d hd => ?_
  obtain rfl := Option.some.inj hd
  decide

end InvoiceOps
