import InvoiceOps.Lib.Calendar
import InvoiceOps.Lib.DecimalContext
import InvoiceOps.Lib.Json
import InvoiceOps.Lib.Lists
import InvoiceOps.Lib.Uuid
import Mathlib.Data.Prod.Lex
import Mathlib.Data.String.Basic

/-! Duplicate-invoice risk (`risk/engine.py`, `schemas/risk.py`): the features of one match, the
comparison of two of them, and the assessment of one against a history. The signals are keyed by their
code and by the run they compare with; with distinct runs the result does not depend on the order of
the history. -/

namespace InvoiceOps

open Calendar

inductive RiskDisposition
  | clear
  | needsReview
  | notAssessable
deriving DecidableEq, Repr

inductive RiskSignalCode
  | exactBusinessKeyDuplicate
  | reusedVendorInvoiceNumber
  | samePoInvoiceReplay
  | nearDuplicate
  | duplicateCheckIncomplete
deriving DecidableEq, Repr

def RiskSignalCode.value : RiskSignalCode → String
  | .exactBusinessKeyDuplicate => "EXACT_BUSINESS_KEY_DUPLICATE"
  | .reusedVendorInvoiceNumber => "REUSED_VENDOR_INVOICE_NUMBER"
  | .samePoInvoiceReplay => "SAME_PO_INVOICE_REPLAY"
  | .nearDuplicate => "NEAR_DUPLICATE"
  | .duplicateCheckIncomplete => "DUPLICATE_CHECK_INCOMPLETE"

inductive RiskSeverity
  | info
  | warning
  | critical
deriving DecidableEq, Repr

structure DuplicateRiskPolicy where
  version : String
  amountAbsoluteTolerance : Decimal
  dateWindowDays : ℕ
  invoiceNumberSimilarityThreshold : Decimal
  routeIncompleteToReview : Bool
  amount_nonneg : 0 ≤ amountAbsoluteTolerance.toRat
  threshold_unit : 0 ≤ invoiceNumberSimilarityThreshold.toRat ∧ invoiceNumberSimilarityThreshold.toRat ≤ 1
deriving Repr

theorem default_amount_nonneg : 0 ≤ (⟨false, 2, -2⟩ : Decimal).toRat := by norm_num [Decimal.toRat, Decimal.int]

/-- The default policy satisfies the bounds of its own fields. -/
def DuplicateRiskPolicy.default : DuplicateRiskPolicy where
  version := "duplicate-risk-v1"
  amountAbsoluteTolerance := ⟨false, 2, -2⟩
  dateWindowDays := 7
  invoiceNumberSimilarityThreshold := ⟨false, 92, -2⟩
  routeIncompleteToReview := true
  amount_nonneg := default_amount_nonneg
  threshold_unit := by norm_num [Decimal.toRat, Decimal.int]

/-- The names of the required features that are absent, in the order they are looked at. -/
def missingFeatures (vendor number : Option String) (date : Option Date) (currency total : Option String) :
    List String :=
  (if vendor.isNone then ["normalized_vendor"] else []) ++
  (if number.isNone then ["normalized_invoice_number"] else []) ++
  (if date.isNone then ["invoice_date"] else []) ++
  (if currency.isNone then ["currency"] else []) ++
  (if total.isNone then ["total"] else [])

/-- The features of a match. Vendor and number are never blank, the total is a number, and the
missing fields are those without a value: nothing else is ever stored. -/
structure RiskFeatureSnapshot where
  normalizedVendor : Option String
  normalizedInvoiceNumber : Option String
  invoiceDate : Option Date
  currency : Option String
  total : Option String
  purchaseOrderId : Uuid
  documentId : Uuid
  extractionRunId : Uuid
  matchRunId : Uuid
  vendor_nonblank : normalizedVendor ≠ some ""
  number_nonblank : normalizedInvoiceNumber ≠ some ""
  total_numeric : ∀ s, total = some s → (Decimal.ofText s).isSome
deriving Repr

def RiskFeatureSnapshot.missingFields (f : RiskFeatureSnapshot) : List String :=
  missingFeatures f.normalizedVendor f.normalizedInvoiceNumber f.invoiceDate f.currency f.total

def RiskFeatureSnapshot.complete (f : RiskFeatureSnapshot) : Bool := f.missingFields.isEmpty

structure RiskSignalDraft where
  code : RiskSignalCode
  severity : RiskSeverity
  comparisonMatchRunId : Option Uuid
  observed : List (String × Json)
  reference : List (String × Json)
  explanation : String

structure RiskAssessmentResult where
  disposition : RiskDisposition
  features : RiskFeatureSnapshot
  signals : List RiskSignalDraft

def signalOrder : RiskSignalCode → ℕ
  | .exactBusinessKeyDuplicate => 0
  | .reusedVendorInvoiceNumber => 1
  | .samePoInvoiceReplay => 2
  | .nearDuplicate => 3
  | .duplicateCheckIncomplete => 4

def requiredFields : List String :=
  ["normalized_vendor", "normalized_invoice_number", "invoice_date", "currency", "total"]

def optionJson (s : Option String) : Json := (s.map Json.str).getD .null

def comparisonValues (f : RiskFeatureSnapshot) (amountDifference : Decimal) : List (String × Json) :=
  [("normalized_vendor", optionJson f.normalizedVendor),
    ("normalized_invoice_number", optionJson f.normalizedInvoiceNumber),
    ("invoice_date", optionJson (f.invoiceDate.map Date.text)),
    ("currency", optionJson f.currency),
    ("total", optionJson f.total),
    ("purchase_order_id", .str f.purchaseOrderId.str),
    ("document_id", .str f.documentId.str),
    ("amount_difference", .str amountDifference.text)]

def riskSignal (code : RiskSignalCode) (severity : RiskSeverity) (reference : RiskFeatureSnapshot)
    (observed expected : List (String × Json)) (explanation : String) : RiskSignalDraft where
  code := code
  severity := severity
  comparisonMatchRunId := some reference.matchRunId
  observed := observed
  reference := expected
  explanation := explanation

section

variable (similarity : String → String → Decimal) (policy : DuplicateRiskPolicy)
  (current reference : RiskFeatureSnapshot)

/-- The total as a number; a complete snapshot has one. -/
def RiskFeatureSnapshot.amount (f : RiskFeatureSnapshot) : Decimal :=
  (f.total.bind Decimal.ofText).getD Decimal.zero

/-- In the default context. -/
def amountDifference : Decimal :=
  let _ := DecimalContext.standard
  DecimalContext.absDiff current.amount reference.amount

def sameVendor : Prop := current.normalizedVendor = reference.normalizedVendor

def sameNumber : Prop := current.normalizedInvoiceNumber = reference.normalizedInvoiceNumber

def amountClose : Prop := amountDifference current reference ≤ policy.amountAbsoluteTolerance

def exactDuplicate : Prop :=
  sameVendor current reference ∧ sameNumber current reference ∧
    current.invoiceDate = reference.invoiceDate ∧ current.currency = reference.currency ∧
    amountClose policy current reference

/-- The distance of the two invoice dates in days. -/
def dateDistance : ℕ :=
  match current.invoiceDate, reference.invoiceDate with
  | some d, some e => ((d.ordinal : ℤ) - e.ordinal).natAbs
  | _, _ => 0

def numberSimilarity : Decimal :=
  similarity (current.normalizedInvoiceNumber.getD "") (reference.normalizedInvoiceNumber.getD "")

def nearDuplicate : Prop :=
  ¬ exactDuplicate policy current reference ∧ sameVendor current reference ∧
    current.currency = reference.currency ∧ amountClose policy current reference ∧
    dateDistance current reference ≤ policy.dateWindowDays ∧
    policy.invoiceNumberSimilarityThreshold ≤ numberSimilarity similarity current reference

instance : Decidable (sameVendor current reference) := inferInstanceAs (Decidable (_ = _))

instance : Decidable (sameNumber current reference) := inferInstanceAs (Decidable (_ = _))

instance : Decidable (amountClose policy current reference) := inferInstanceAs (Decidable (_ ≤ _))

instance : Decidable (exactDuplicate policy current reference) :=
  inferInstanceAs (Decidable (_ ∧ _ ∧ _ ∧ _ ∧ _))

instance : Decidable (nearDuplicate similarity policy current reference) :=
  inferInstanceAs (Decidable (¬ _ ∧ _ ∧ _ ∧ _ ∧ _ ∧ _))

/-- `_compare`, for two complete snapshots. -/
def compareFeatures : List RiskSignalDraft :=
  let difference := amountDifference current reference
  let observed := comparisonValues current difference
  let expected := comparisonValues reference Decimal.zero
  let similar := numberSimilarity similarity current reference
  (if exactDuplicate policy current reference then
    [riskSignal .exactBusinessKeyDuplicate .critical reference observed expected
      ("Vendor, invoice number, date and currency match a prior invoice and the " ++
        "total is within the configured absolute tolerance.")]
  else if sameVendor current reference ∧ sameNumber current reference then
    [riskSignal .reusedVendorInvoiceNumber .warning reference observed expected
      ("The vendor and invoice number match a prior invoice, but another material " ++
        "business-key value differs.")]
  else []) ++
  (if current.purchaseOrderId = reference.purchaseOrderId ∧ sameNumber current reference then
    [riskSignal .samePoInvoiceReplay .critical reference observed expected
      "The same invoice number was previously processed against this purchase order."]
  else []) ++
  (if nearDuplicate similarity policy current reference then
    [riskSignal .nearDuplicate .warning reference
      (observed ++ [("invoice_number_similarity", .str similar.text),
        ("date_distance_days", .int (dateDistance current reference))])
      (expected ++ [("minimum_similarity", .str policy.invoiceNumberSimilarityThreshold.text),
        ("maximum_date_distance_days", .int policy.dateWindowDays)])
      ("A prior invoice from the same vendor has a sufficiently similar invoice " ++
        "number, close date and total, and the same currency.")]
  else [])

end

/-- The key under which a signal is kept. -/
def RiskSignalDraft.key (s : RiskSignalDraft) : RiskSignalCode × Option Uuid := (s.code, s.comparisonMatchRunId)

/-- A dictionary insertion: a later signal replaces an earlier one with its key, in its place. -/
def insertSignal (signals : List RiskSignalDraft) (s : RiskSignalDraft) : List RiskSignalDraft :=
  if s.key ∈ signals.map (·.key) then signals.map fun t => if t.key = s.key then s else t
  else signals ++ [s]

def deduplicate (signals : List RiskSignalDraft) : List RiskSignalDraft := signals.foldl insertSignal []

/-- Signals are ordered by their code, then by the text of the run they compare with. -/
def RiskSignalDraft.orderKey (s : RiskSignalDraft) : ℕ ×ₗ String :=
  toLex (signalOrder s.code, (s.comparisonMatchRunId.map Uuid.str).getD "")

section

variable (similarity : String → String → Decimal) (policy : DuplicateRiskPolicy)
  (current : RiskFeatureSnapshot)

def incompleteSignal : RiskSignalDraft where
  code := .duplicateCheckIncomplete
  severity := .warning
  comparisonMatchRunId := none
  observed := [("missing_fields", .arr (current.missingFields.map Json.str))]
  reference := [("required_fields", .arr (requiredFields.map Json.str))]
  explanation := "Duplicate comparison is incomplete because required business-key " ++
    "features are unavailable: " ++ ", ".intercalate current.missingFields ++ "."

/-- The references the comparison goes through: complete ones of other runs and other documents. -/
def comparable (reference : RiskFeatureSnapshot) : Bool :=
  reference.complete && decide (reference.matchRunId ≠ current.matchRunId) &&
    decide (reference.documentId ≠ current.documentId)

def comparisonSignals (historical : List RiskFeatureSnapshot) : List RiskSignalDraft :=
  historical.flatMap fun reference =>
    if comparable current reference then compareFeatures similarity policy current reference else []

def dispositionOf (signals : List RiskSignalDraft) : RiskDisposition :=
  let duplicateFound := signals.any fun s => s.code ≠ .duplicateCheckIncomplete
  let incomplete := signals.any fun s => s.code = .duplicateCheckIncomplete
  if duplicateFound || (incomplete && policy.routeIncompleteToReview) then .needsReview
  else if incomplete then .notAssessable
  else .clear

def assessDuplicateRisk (historical : List RiskFeatureSnapshot) : RiskAssessmentResult :=
  let signals := if current.complete then comparisonSignals similarity policy current historical
    else [incompleteSignal current]
  let ordered := (deduplicate signals).insertionSort fun s t => s.orderKey ≤ t.orderKey
  { disposition := dispositionOf policy ordered, features := current, signals := ordered }

end

section

variable {similarity : String → String → Decimal} {policy : DuplicateRiskPolicy}
  {current reference : RiskFeatureSnapshot}

/-- A comparison makes at most one signal of each kind, all about the reference's run. -/
theorem compareFeatures_keys :
    ((compareFeatures similarity policy current reference).map (·.code)).Nodup ∧
      ∀ s ∈ compareFeatures similarity policy current reference,
        s.comparisonMatchRunId = some reference.matchRunId ∧ s.code ≠ .duplicateCheckIncomplete := by
  unfold compareFeatures
  simp only
  split_ifs <;> simp [riskSignal]

theorem nodup_key_compareFeatures :
    ((compareFeatures similarity policy current reference).map (·.key)).Nodup := by
  refine List.Nodup.of_map Prod.fst ?_
  rw [List.map_map]
  exact compareFeatures_keys.1

theorem mem_comparisonSignals {historical : List RiskFeatureSnapshot} {s : RiskSignalDraft} :
    s ∈ comparisonSignals similarity policy current historical ↔
      ∃ r ∈ historical, comparable current r = true ∧ s ∈ compareFeatures similarity policy current r := by
  unfold comparisonSignals
  rw [List.mem_flatMap]
  refine ⟨fun h => ?_, fun h => ?_⟩
  · obtain ⟨r, hr, hs⟩ := h
    split_ifs at hs with hc
    · exact ⟨r, hr, hc, hs⟩
    · simp at hs
  · obtain ⟨r, hr, hc, hs⟩ := h
    exact ⟨r, hr, by rwa [if_pos hc]⟩

/-- With distinct runs in the history, no two signals share a key. -/
theorem nodup_key_comparisonSignals {historical : List RiskFeatureSnapshot}
    (h : (historical.map (·.matchRunId)).Nodup) :
    ((comparisonSignals similarity policy current historical).map (·.key)).Nodup := by
  induction historical with
  | nil => simp [comparisonSignals]
  | cons r historical ih =>
    rw [List.map_cons, List.nodup_cons] at h
    have hcons : comparisonSignals similarity policy current (r :: historical) =
        (if comparable current r then compareFeatures similarity policy current r else []) ++
          comparisonSignals similarity policy current historical := List.flatMap_cons ..
    rw [hcons, List.map_append, List.nodup_append]
    refine ⟨?_, ih h.2, ?_⟩
    · split_ifs
      · exact nodup_key_compareFeatures
      · simp
    · intro k hk k' hk' heq
      split_ifs at hk
      · obtain ⟨s, hs, rfl⟩ := List.mem_map.1 hk
        obtain ⟨t, ht, rfl⟩ := List.mem_map.1 hk'
        obtain ⟨r', hr', -, ht⟩ := mem_comparisonSignals.1 ht
        have hrun : s.comparisonMatchRunId = t.comparisonMatchRunId := congrArg Prod.snd heq
        rw [(compareFeatures_keys.2 s hs).1, (compareFeatures_keys.2 t ht).1, Option.some.injEq] at hrun
        exact h.1 (hrun ▸ List.mem_map_of_mem hr')
      · simp at hk

theorem deduplicate_of_nodup {signals : List RiskSignalDraft} (h : (signals.map (·.key)).Nodup) :
    deduplicate signals = signals := by
  suffices hfold : ∀ done, ((done ++ signals).map (·.key)).Nodup →
      signals.foldl insertSignal done = done ++ signals from hfold [] h
  clear h
  induction signals with
  | nil => simp
  | cons s signals ih =>
    intro done hnd
    have hs : s.key ∉ done.map (·.key) := by
      rw [List.map_append, List.nodup_append] at hnd
      exact fun hm => hnd.2.2 _ hm _ (by simp) rfl
    rw [List.foldl_cons, insertSignal, if_neg hs, ih _ (by simpa using hnd)]
    simp

theorem signalOrder_injective : Function.Injective signalOrder := by
  intro a b h
  cases a <;> cases b <;> simp_all [signalOrder]

/-- Where all signals name a run, the order key determines the key. -/
theorem nodup_orderKey {signals : List RiskSignalDraft} (h : (signals.map (·.key)).Nodup)
    (hrun : ∀ s ∈ signals, s.comparisonMatchRunId ≠ none) : (signals.map (·.orderKey)).Nodup := by
  refine List.Nodup.map_on ?_ (List.Nodup.of_map _ h)
  intro s hs t ht heq
  apply List.inj_on_of_nodup_map h hs ht
  have hpair := Prod.mk.inj (toLex_inj.1 heq)
  have hcode : s.code = t.code := signalOrder_injective hpair.1
  obtain ⟨u, hu⟩ := Option.ne_none_iff_exists'.1 (hrun s hs)
  obtain ⟨v, hv⟩ := Option.ne_none_iff_exists'.1 (hrun t ht)
  have hid : u.str = v.str := by simpa [hu, hv] using hpair.2
  rw [RiskSignalDraft.key, RiskSignalDraft.key, hcode, hu, hv, Uuid.str_inj hid]

/-- Any signal of a comparison asks for a review. -/
theorem disposition_of_signal {historical : List RiskFeatureSnapshot} {s : RiskSignalDraft}
    (h : s ∈ (assessDuplicateRisk similarity policy current historical).signals)
    (hcode : s.code ≠ .duplicateCheckIncomplete) :
    (assessDuplicateRisk similarity policy current historical).disposition = .needsReview := by
  have hdisposition : (assessDuplicateRisk similarity policy current historical).disposition =
      dispositionOf policy (assessDuplicateRisk similarity policy current historical).signals := rfl
  have hfound : ((assessDuplicateRisk similarity policy current historical).signals.any
      fun s => s.code ≠ .duplicateCheckIncomplete) = true := List.any_eq_true.2 ⟨s, h, by simpa using hcode⟩
  rw [hdisposition]
  simp only [dispositionOf, hfound, Bool.true_or, if_true]

/-- The assessment does not depend on the order in which the history is returned. -/
theorem assessDuplicateRisk_perm {historical historical' : List RiskFeatureSnapshot}
    (hperm : historical.Perm historical') (hruns : (historical.map (·.matchRunId)).Nodup) :
    assessDuplicateRisk similarity policy current historical =
      assessDuplicateRisk similarity policy current historical' := by
  unfold assessDuplicateRisk
  by_cases hcomplete : current.complete
  · have hsignals : (comparisonSignals similarity policy current historical).Perm
        (comparisonSignals similarity policy current historical') := hperm.flatMap_right _
    have hkeys : ((comparisonSignals similarity policy current historical).map (·.key)).Nodup :=
      nodup_key_comparisonSignals hruns
    have hkeys' : ((comparisonSignals similarity policy current historical').map (·.key)).Nodup :=
      (hsignals.map _).nodup_iff.1 hkeys
    have hrun : ∀ s ∈ comparisonSignals similarity policy current historical, s.comparisonMatchRunId ≠ none := by
      intro s hs
      obtain ⟨r, -, -, hs⟩ := mem_comparisonSignals.1 hs
      simp [(compareFeatures_keys.2 s hs).1]
    have hsort := Lists.insertionSort_eq_of_perm hsignals (nodup_orderKey hkeys hrun)
    simp only [hcomplete, if_true, deduplicate_of_nodup hkeys, deduplicate_of_nodup hkeys', hsort]
  · simp [hcomplete]

end

end InvoiceOps
