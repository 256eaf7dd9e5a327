import InvoiceOps.Lib.Matching
import InvoiceOps.Lib.Text
import InvoiceOps.Schemas.Matching
import Mathlib.Data.List.Sort
import Mathlib.Data.Prod.Lex
import Mathlib.Data.String.Basic
import Mathlib.Data.Sum.Order

/-! Assignment of invoice lines to purchase-order lines (`_candidate_pairs` in `matching/engine.py`
and `matching/normalization.py`). A first pass assigns equal descriptions; the lines it leaves get
scored candidates, and one greedy pass over all ranked candidates does the rest. Every way a line
can fall out reports its own check. -/

namespace InvoiceOps

open GreedyMatching

/-- The Unicode tables the source reads: normal form, case folding, upper case, the two character
classes and the values of decimal digits. -/
structure Unicode where
  nfkc : String → String
  casefold : String → String
  upper : String → String
  isWord : Char → Bool
  isAlnum : Char → Bool
  digit : Char → Option ℕ

/-- Every run of characters that are not kept becomes one blank. -/
def blankRuns (keep : Char → Bool) : Bool → List Char → List Char
  | _, [] => []
  | inRun, c :: cs =>
    if keep c then c :: blankRuns keep false cs
    else if inRun then blankRuns keep true cs
    else ' ' :: blankRuns keep true cs

def normalizeDescription (U : Unicode) (value : String) : String :=
  String.ofList (Text.joinWords (blankRuns U.isWord false (U.casefold (U.nfkc value)).toList))

/-- `description_similarity`, for the ratio of two normalised texts in percent. -/
def descriptionSimilarity (U : Unicode) (tokenSetRatio : String → String → ℚ) (left right : String) : ℚ :=
  let l := normalizeDescription U left
  let r := normalizeDescription U right
  if l = "" ∨ r = "" then 0 else tokenSetRatio l r / 100

/-- The operations on texts and floats the engine is run with. The similarity is any function into
the unit interval; a difference of two floats is rounded. -/
structure TextOps extends Unicode where
  similarity : String → String → ℚ
  similarity_unit : ∀ l r, 0 ≤ similarity l r ∧ similarity l r ≤ 1
  floatSub : ℚ → ℚ → ℚ
  floatStr : ℚ → String
  floatFixed6 : ℚ → String

/-- The operations of the source, for a ratio between 0 and 100. -/
def TextOps.ofRatio (U : Unicode) (tokenSetRatio : String → String → ℚ)
    (h : ∀ l r, 0 ≤ tokenSetRatio l r ∧ tokenSetRatio l r ≤ 100)
    (floatSub : ℚ → ℚ → ℚ) (floatStr floatFixed6 : ℚ → String) : TextOps :=
  { U with
    similarity := descriptionSimilarity U tokenSetRatio
    similarity_unit := by
      intro l r
      unfold descriptionSimilarity
      simp only
      split_ifs
      · norm_num
      · obtain ⟨h0, h1⟩ := h (normalizeDescription U l) (normalizeDescription U r)
        constructor <;> linarith
    floatSub := floatSub
    floatStr := floatStr
    floatFixed6 := floatFixed6 }

/-- Texts of ASCII letters and digits; every two texts are alike, as the token set ratio has it when
the words of one are among the words of the other. -/
def asciiTextOps : TextOps :=
  TextOps.ofRatio
    { nfkc := id
      casefold := String.toLower
      upper := String.toUpper
      isWord := fun c => c.isAlphanum || c == '_'
      isAlnum := Char.isAlphanum
      digit := Text.asciiDigit }
    (fun _ _ => 100) (fun _ _ => by norm_num) (fun a b => a - b) (fun _ => "") (fun _ => "")

/-- `_Pair`: an invoice line and a purchase-order line, by their positions. -/
structure Pair (invoice : Invoice) (po : PurchaseOrderRead) where
  invoiceIndex : Fin invoice.lineItems.length
  poIndex : Fin po.lines.length
  score : ℚ
  isExact : Bool
deriving DecidableEq, Repr

def poLineSortKey (T : TextOps) (line : PurchaseOrderLine) : ℤ ⊕ String :=
  match Text.readInt T.digit line.lineNumber with
  | some n => .inl n
  | none => .inr (T.casefold line.lineNumber)

def sortKeyLt : ℤ ⊕ String → ℤ ⊕ String → Bool
  | .inl m, .inl n => m < n
  | .inl _, .inr _ => true
  | .inr _, .inl _ => false
  | .inr s, .inr t => s < t

def issueCheck (code : ReasonCode) (message : String) : ValidationCheck where
  code := code
  status := .failed
  severity := .error
  message := message

/-- `_line_evidence` of the engine, which includes the description. -/
def fullLineEvidence (line : InvoiceLine) : List EvidenceSpan :=
  line.description.evidence ++ line.quantity.evidence ++ line.unitPrice.evidence ++ line.lineTotal.evidence

section

variable (T : TextOps) {invoice : Invoice} {po : PurchaseOrderRead} (policy : Tolerances)

namespace Pair

def invoiceLine (p : Pair invoice po) : InvoiceLine := invoice.lineItems.get p.invoiceIndex

def poLine (p : Pair invoice po) : PurchaseOrderLine := po.lines.get p.poIndex

/-- Order by descending score, then by line number, then by invoice line. -/
def RankLe (p q : Pair invoice po) : Prop :=
  q.score < p.score ∨ q.score = p.score ∧
    (sortKeyLt (poLineSortKey T p.poLine) (poLineSortKey T q.poLine) ∨
      poLineSortKey T p.poLine = poLineSortKey T q.poLine ∧ p.invoiceIndex ≤ q.invoiceIndex)

instance : DecidableRel (@RankLe T invoice po) := fun _ _ =>
  inferInstanceAs (Decidable (_ ∨ _ ∧ (_ ∨ _ ∧ _)))

end Pair

/-- Python's `sorted` with the ranking as its key: stable. -/
def rank (ps : List (Pair invoice po)) : List (Pair invoice po) := ps.insertionSort (Pair.RankLe T)

/-- The variables of the first loop, with the checks it appends. -/
structure ExactPass (invoice : Invoice) (po : PurchaseOrderRead) where
  availablePo : List (Fin po.lines.length)
  unresolvedInvoice : List (Fin invoice.lineItems.length)
  selected : List (Pair invoice po)
  issues : List ValidationCheck
deriving DecidableEq, Repr

/-- The description of a line that is extracted and does not normalise to nothing. -/
def usableDescription (line : InvoiceLine) : Option String :=
  line.description.extractedValue.filter fun d => normalizeDescription T.toUnicode d ≠ ""

def exactCandidates (available : List (Fin po.lines.length)) (description : String) :
    List (Fin po.lines.length) :=
  available.filter fun j => normalizeDescription T.toUnicode (po.lines.get j).description =
    normalizeDescription T.toUnicode description

def exactStep (s : ExactPass invoice po) (i : Fin invoice.lineItems.length) : ExactPass invoice po :=
  let line := invoice.lineItems.get i
  let evidence := line.description.evidence
  match usableDescription T line with
  | none =>
    { s with
      issues := s.issues ++ [{ issueCheck .invoiceLineUnmatched
        "Invoice line description is missing or ambiguous." with
        invoiceLineIndex := some i, evidence := evidence }]
      unresolvedInvoice := s.unresolvedInvoice.filter (· ≠ i) }
  | some description =>
    match exactCandidates T s.availablePo description with
    | [] => s
    | [j] =>
      { s with
        selected := s.selected ++ [⟨i, j, 1, true⟩]
        unresolvedInvoice := s.unresolvedInvoice.filter (· ≠ i)
        availablePo := s.availablePo.filter (· ≠ j) }
    | _ :: _ :: _ =>
      { s with
        issues := s.issues ++ [{ issueCheck .descriptionAmbiguous
          "Invoice description exactly matches multiple purchase-order lines." with
          invoiceLineIndex := some i, actual := some description,
          tolerance := some (T.floatStr policy.ambiguityMargin), evidence := evidence }]
        unresolvedInvoice := s.unresolvedInvoice.filter (· ≠ i) }

variable (invoice po) in
def exactPass : ExactPass invoice po :=
  (List.finRange invoice.lineItems.length).foldl (exactStep T policy)
    ⟨List.finRange po.lines.length, List.finRange invoice.lineItems.length, [], []⟩

/-- All remaining purchase-order lines, ranked for one invoice line. The positions are scanned in
ascending order, as the source's set of small integers is. The description of a line that reaches
this point has a value. -/
def scored (available : List (Fin po.lines.length)) (i : Fin invoice.lineItems.length) :
    List (Pair invoice po) :=
  let description := (invoice.lineItems.get i).description.value.getD ""
  rank T (available.map fun j => ⟨i, j, T.similarity description (po.lines.get j).description, false⟩)

def eligible (available : List (Fin po.lines.length)) (i : Fin invoice.lineItems.length) :
    List (Pair invoice po) :=
  (scored T available i).filter fun p => policy.descriptionSimilarityThreshold ≤ p.score

/-- The candidates of one invoice line, or the reason it has none. -/
def lineCandidates (available : List (Fin po.lines.length)) (i : Fin invoice.lineItems.length) :
    Except ValidationCheck (List (Pair invoice po)) :=
  let line := invoice.lineItems.get i
  let evidence := line.description.evidence
  match scored T available i with
  | [] => .error { issueCheck .extraInvoiceLine
      "Invoice contains a line with no remaining purchase-order line." with
      invoiceLineIndex := some i, evidence := fullLineEvidence line }
  | best :: _ =>
    match eligible T policy available i with
    | [] => .error { issueCheck .descriptionBelowThreshold
        "Best purchase-order description is below the matching threshold." with
        invoiceLineIndex := some i,
        expected := some (T.floatStr policy.descriptionSimilarityThreshold),
        actual := some (T.floatFixed6 best.score), evidence := evidence }
    | [p] => .ok [p]
    | p :: q :: rest =>
      if T.floatSub p.score q.score < policy.ambiguityMargin then
        .error { issueCheck .descriptionAmbiguous
          "The two best purchase-order descriptions are too close to distinguish." with
          invoiceLineIndex := some i,
          expected := some ("margin >= " ++ T.floatStr policy.ambiguityMargin),
          actual := some (T.floatFixed6 (T.floatSub p.score q.score)), evidence := evidence }
      else .ok (p :: q :: rest)

def candidateIssue (available : List (Fin po.lines.length)) (i : Fin invoice.lineItems.length) :
    Option ValidationCheck :=
  match lineCandidates T policy available i with
  | .error c => some c
  | .ok _ => none

def candidateEdges (available : List (Fin po.lines.length)) (i : Fin invoice.lineItems.length) :
    List (Pair invoice po) :=
  match lineCandidates T policy available i with
  | .error _ => []
  | .ok es => es

variable (invoice po) in
/-- The candidates of all lines the first pass left, best first. -/
def rankedCandidates : List (Pair invoice po) :=
  let e := exactPass T invoice po policy
  rank T (e.unresolvedInvoice.flatMap (candidateEdges T policy e.availablePo))

variable (invoice po) in
/-- All selected pairs, in the order they were selected. -/
def selectedPairs : List (Pair invoice po) :=
  greedy Pair.invoiceIndex Pair.poIndex (exactPass T invoice po policy).selected
    (rankedCandidates T invoice po policy)

/-- One pass of the loop over lines left without a pair: nothing is reported when any check
already mentions the line. -/
def unmatchedStep (checks : List ValidationCheck) (i : Fin invoice.lineItems.length) :
    List ValidationCheck :=
  if checks.any fun c => c.invoiceLineIndex = some (i : ℕ) then checks
  else checks ++ [{ issueCheck .invoiceLineUnmatched
    "Invoice line could not be assigned one-to-one to a purchase-order line." with
    invoiceLineIndex := some i, evidence := fullLineEvidence (invoice.lineItems.get i) }]

/-- The purchase-order lines no selected pair uses. -/
def poUnmatchedChecks (selected : List (Pair invoice po)) : List ValidationCheck :=
  ((List.finRange po.lines.length).filter fun j => j ∉ selected.map Pair.poIndex).map fun j =>
    { issueCheck .poLineUnmatched "Purchase-order line has no matching invoice line." with
      poLineId := some (po.lines.get j).id, expected := some (po.lines.get j).description }

variable (invoice po) in
/-- `_candidate_pairs`: the extended list of checks and the pairs by invoice line. -/
def candidatePairs (checks : List ValidationCheck) : List ValidationCheck × List (Pair invoice po) :=
  let e := exactPass T invoice po policy
  let selected := selectedPairs T invoice po policy
  let reported := checks ++ e.issues ++
    e.unresolvedInvoice.filterMap (candidateIssue T policy e.availablePo)
  let unassigned := e.unresolvedInvoice.filter fun i => i ∉ selected.map Pair.invoiceIndex
  (unassigned.foldl unmatchedStep reported ++ poUnmatchedChecks selected,
    selected.insertionSort fun p q => p.invoiceIndex ≤ q.invoiceIndex)

variable {T policy}

theorem sortKeyLt_iff {a b : ℤ ⊕ String} : sortKeyLt a b = true ↔ toLex a < toLex b := by
  cases a with
  | inl m =>
    cases b with
    | inl n => simp [sortKeyLt]
    | inr t => simp [sortKeyLt]
  | inr s =>
    cases b with
    | inl n => simp [sortKeyLt]
    | inr t => simp [sortKeyLt]

/-- What the ranking compares. -/
def rankKey (T : TextOps) (p : Pair invoice po) : ℚᵒᵈ ×ₗ (ℤ ⊕ₗ String) ×ₗ Fin invoice.lineItems.length :=
  toLex (OrderDual.toDual p.score, toLex (toLex (poLineSortKey T p.poLine), p.invoiceIndex))

theorem rankLe_iff {p q : Pair invoice po} : Pair.RankLe T p q ↔ rankKey T p ≤ rankKey T q := by
  rw [Pair.RankLe, rankKey, rankKey, Prod.Lex.toLex_le_toLex, Prod.Lex.toLex_le_toLex, sortKeyLt_iff]
  simp only [OrderDual.toDual_lt_toDual, EmbeddingLike.apply_eq_iff_eq]
  rw [@eq_comm _ p.score]

instance : Std.Total (@Pair.RankLe T invoice po) := ⟨fun p q => by
  rw [rankLe_iff, rankLe_iff]
  exact le_total _ _⟩

instance : IsTrans (Pair invoice po) (Pair.RankLe T) := ⟨fun p q r hpq hqr => by
  rw [rankLe_iff] at hpq hqr ⊢
  exact hpq.trans hqr⟩

/-- After the lines in `done`, every line is unresolved, selected or reported, and the available
purchase-order lines are the unselected ones. -/
structure ExactInv (done : List (Fin invoice.lineItems.length)) (s : ExactPass invoice po) : Prop where
  oneToOne : OneToOne Pair.invoiceIndex Pair.poIndex s.selected
  available_nodup : s.availablePo.Nodup
  unresolved_nodup : s.unresolvedInvoice.Nodup
  available : ∀ j, j ∈ s.availablePo ↔ j ∉ s.selected.map Pair.poIndex
  unresolved : ∀ i, i ∈ s.unresolvedInvoice ↔ i ∉ s.selected.map Pair.invoiceIndex ∧
    ∀ c ∈ s.issues, c.invoiceLineIndex ≠ some (i : ℕ)
  selected_done : ∀ p ∈ s.selected, p.invoiceIndex ∈ done ∧ p.score = 1 ∧ p.isExact = true
  issue : ∀ c ∈ s.issues, c.status = .failed ∧ (c.code = .invoiceLineUnmatched ∨ c.code = .descriptionAmbiguous) ∧
    ∃ i ∈ done, c.invoiceLineIndex = some (i : ℕ) ∧ i ∉ s.selected.map Pair.invoiceIndex

/-- A step that reports line `i` and takes it out of the unresolved lines. -/
theorem ExactInv.report {done : List (Fin invoice.lineItems.length)} {s : ExactPass invoice po}
    {i : Fin invoice.lineItems.length} {c : ValidationCheck} (h : ExactInv done s) (hi : i ∉ done)
    (hstatus : c.status = .failed)
    (hcode : c.code = .invoiceLineUnmatched ∨ c.code = .descriptionAmbiguous)
    (hindex : c.invoiceLineIndex = some (i : ℕ)) :
    ExactInv (done ++ [i])
      { s with issues := s.issues ++ [c], unresolvedInvoice := s.unresolvedInvoice.filter (· ≠ i) } where
  oneToOne := h.oneToOne
  available_nodup := h.available_nodup
  unresolved_nodup := h.unresolved_nodup.filter _
  available := h.available
  unresolved := by
    intro k
    simp only [List.mem_filter, decide_eq_true_eq, h.unresolved, List.mem_append, List.mem_singleton,
      or_imp, forall_and, forall_eq, hindex]
    constructor
    · rintro ⟨⟨hs, hc⟩, hk⟩
      exact ⟨hs, hc, fun heq => hk (Fin.ext (Option.some.inj heq).symm)⟩
    · rintro ⟨hs, hc, hk⟩
      exact ⟨⟨hs, hc⟩, fun heq => hk (by rw [heq])⟩
  selected_done := fun p hp => ⟨List.mem_append_left _ (h.selected_done p hp).1, (h.selected_done p hp).2⟩
  issue := by
    intro d hd
    rcases List.mem_append.1 hd with hd | hd
    · obtain ⟨hs, hcd, k, hk, hidx, hsel⟩ := h.issue d hd
      exact ⟨hs, hcd, k, List.mem_append_left _ hk, hidx, hsel⟩
    · obtain rfl := List.mem_singleton.1 hd
      refine ⟨hstatus, hcode, i, by simp, hindex, ?_⟩
      intro hm
      obtain ⟨p, hp, rfl⟩ := List.mem_map.1 hm
      exact hi (h.selected_done p hp).1

/-- A step that assigns line `i` to the available purchase-order line `j`. -/
theorem ExactInv.select {done : List (Fin invoice.lineItems.length)} {s : ExactPass invoice po}
    {i : Fin invoice.lineItems.length} {j : Fin po.lines.length} (h : ExactInv done s) (hi : i ∉ done)
    (hj : j ∈ s.availablePo) :
    ExactInv (done ++ [i])
      { s with
        selected := s.selected ++ [⟨i, j, 1, true⟩]
        unresolvedInvoice := s.unresolvedInvoice.filter (· ≠ i)
        availablePo := s.availablePo.filter (· ≠ j) } where
  oneToOne := by
    refine h.oneToOne.snoc (fun hm => ?_) ((h.available j).1 hj)
    obtain ⟨p, hp, hpi⟩ := List.mem_map.1 hm
    have hdone := (h.selected_done p hp).1
    rw [hpi] at hdone
    exact hi hdone
  available_nodup := h.available_nodup.filter _
  unresolved_nodup := h.unresolved_nodup.filter _
  available := by
    intro k
    simp [h.available, not_or]
  unresolved := by
    intro k
    simp only [List.mem_filter, decide_eq_true_eq, h.unresolved, List.map_append, List.mem_append,
      List.map_cons, List.map_nil, List.mem_singleton, not_or]
    tauto
  selected_done := by
    intro p hp
    rcases List.mem_append.1 hp with hp | hp
    · exact ⟨List.mem_append_left _ (h.selected_done p hp).1, (h.selected_done p hp).2⟩
    · obtain rfl := List.mem_singleton.1 hp
      exact ⟨by simp, rfl, rfl⟩
  issue := by
    intro d hd
    obtain ⟨hs, hcd, k, hk, hidx, hsel⟩ := h.issue d hd
    refine ⟨hs, hcd, k, List.mem_append_left _ hk, hidx, ?_⟩
    have hki : k ≠ i := fun heq => hi (heq ▸ hk)
    simpa [hki] using hsel

theorem ExactInv.step {done : List (Fin invoice.lineItems.length)} {s : ExactPass invoice po}
    {i : Fin invoice.lineItems.length} (h : ExactInv done s) (hi : i ∉ done) :
    ExactInv (done ++ [i]) (exactStep T policy s i) := by
  unfold exactStep
  simp only
  split
  · exact h.report hi rfl (Or.inl rfl) rfl
  · next description _ =>
    split
    · exact ⟨h.oneToOne, h.available_nodup, h.unresolved_nodup, h.available, h.unresolved,
        fun p hp => ⟨List.mem_append_left _ (h.selected_done p hp).1, (h.selected_done p hp).2⟩,
        fun c hc => by
          obtain ⟨hs, hcd, k, hk, hrest⟩ := h.issue c hc
          exact ⟨hs, hcd, k, List.mem_append_left _ hk, hrest⟩⟩
    · next j hj =>
      have hmem : j ∈ exactCandidates T s.availablePo description := by rw [hj]; simp
      exact h.select hi (List.mem_of_mem_filter hmem)
    · exact h.report hi rfl (Or.inr rfl) rfl

/-- Before the first line all lines are unresolved and all purchase-order lines available. -/
theorem exactInv_initial : ExactInv [] (⟨List.finRange _, List.finRange _, [], []⟩ : ExactPass invoice po) :=
  ⟨OneToOne.nil, List.nodup_finRange _, List.nodup_finRange _, by simp, by simp, by simp, by simp⟩

theorem exactPass_inv :
    ExactInv (List.finRange invoice.lineItems.length) (exactPass T invoice po policy) := by
  unfold exactPass
  -- the invariant is over the lines already passed
  suffices hfold : ∀ (todo done : List (Fin invoice.lineItems.length)) (s : ExactPass invoice po),
      (done ++ todo).Nodup → ExactInv done s → ExactInv (done ++ todo) (todo.foldl (exactStep T policy) s) by
    exact hfold (List.finRange _) [] _ (List.nodup_finRange _) exactInv_initial
  intro todo
  induction todo with
  | nil => intro done s _ h; simpa using h
  | cons i todo ih =>
    intro done s hnd h
    have hi : i ∉ done := by
      rw [List.nodup_append] at hnd
      exact fun hm => hnd.2.2 i hm i (by simp) rfl
    have hstep : ExactInv (done ++ [i]) (exactStep T policy s i) := h.step hi
    simpa using ih (done ++ [i]) _ (by simpa using hnd) hstep

theorem lineCandidates_error {available : List (Fin po.lines.length)}
    {i : Fin invoice.lineItems.length} {c : ValidationCheck}
    (h : lineCandidates T policy available i = .error c) :
    c.status = .failed ∧ c.invoiceLineIndex = some (i : ℕ) ∧
      c.code ∈ [ReasonCode.extraInvoiceLine, .descriptionBelowThreshold, .descriptionAmbiguous] := by
  unfold lineCandidates at h
  simp only at h
  split at h
  · cases h; exact ⟨rfl, rfl, by simp [issueCheck]⟩
  · split at h
    · cases h; exact ⟨rfl, rfl, by simp [issueCheck]⟩
    · cases h
    · split_ifs at h
      cases h; exact ⟨rfl, rfl, by simp [issueCheck]⟩

theorem lineCandidates_ok {available : List (Fin po.lines.length)}
    {i : Fin invoice.lineItems.length} {es : List (Pair invoice po)}
    (h : lineCandidates T policy available i = .ok es) :
    es = eligible T policy available i ∧ es ≠ [] := by
  unfold lineCandidates at h
  simp only at h
  split at h
  · cases h
  · split at h
    · cases h
    · next heq => cases h; exact ⟨heq.symm, by simp⟩
    · next heq =>
      split_ifs at h
      cases h; exact ⟨heq.symm, by simp⟩

theorem mem_eligible {available : List (Fin po.lines.length)} {i : Fin invoice.lineItems.length}
    {p : Pair invoice po} (h : p ∈ eligible T policy available i) :
    p.invoiceIndex = i ∧ p.poIndex ∈ available ∧ p.isExact = false ∧
      policy.descriptionSimilarityThreshold ≤ p.score := by
  obtain ⟨hp, hscore⟩ := List.mem_filter.1 h
  have hp' := (List.perm_insertionSort (Pair.RankLe T) _).mem_iff.1 hp
  obtain ⟨j, hj, rfl⟩ := List.mem_map.1 hp'
  exact ⟨rfl, hj, rfl, by simpa using hscore⟩

theorem candidateIssue_eq_none {available : List (Fin po.lines.length)}
    {i : Fin invoice.lineItems.length} :
    candidateIssue T policy available i = none ↔ candidateEdges T policy available i ≠ [] := by
  unfold candidateIssue candidateEdges
  cases h : lineCandidates T policy available i with
  | error c => simp
  | ok es => simpa using (lineCandidates_ok h).2

theorem mem_candidateEdges {available : List (Fin po.lines.length)}
    {i : Fin invoice.lineItems.length} {p : Pair invoice po}
    (h : p ∈ candidateEdges T policy available i) : p ∈ eligible T policy available i := by
  unfold candidateEdges at h
  split at h
  · simp at h
  · next heq => rwa [(lineCandidates_ok heq).1] at h

theorem score_of_mem_candidateEdges {available : List (Fin po.lines.length)} {p : Pair invoice po}
    {i : Fin invoice.lineItems.length} (hp : p ∈ candidateEdges T policy available i) :
    p = ⟨i, p.poIndex, T.similarity ((invoice.lineItems.get i).description.value.getD "") p.poLine.description, false⟩ := by
  have hscored := (List.mem_filter.1 (mem_candidateEdges hp)).1
  obtain ⟨j, -, rfl⟩ := List.mem_map.1 ((List.perm_insertionSort (Pair.RankLe T) _).mem_iff.1 hscored)
  rfl

theorem mem_rankedCandidates {p : Pair invoice po} :
    p ∈ rankedCandidates T invoice po policy ↔
      p.invoiceIndex ∈ (exactPass T invoice po policy).unresolvedInvoice ∧
      p ∈ candidateEdges T policy (exactPass T invoice po policy).availablePo p.invoiceIndex := by
  unfold rankedCandidates rank
  rw [(List.perm_insertionSort (Pair.RankLe T) _).mem_iff, List.mem_flatMap]
  constructor
  · rintro ⟨i, hi, hp⟩
    obtain rfl := (mem_eligible (mem_candidateEdges hp)).1
    exact ⟨hi, hp⟩
  · rintro ⟨hi, hp⟩
    exact ⟨_, hi, hp⟩

theorem selectedPairs_oneToOne :
    OneToOne Pair.invoiceIndex Pair.poIndex (selectedPairs T invoice po policy) :=
  greedy_oneToOne _ exactPass_inv.oneToOne

theorem mem_selectedPairs {p : Pair invoice po} (h : p ∈ selectedPairs T invoice po policy) :
    p ∈ (exactPass T invoice po policy).selected ∨ p ∈ rankedCandidates T invoice po policy :=
  mem_of_mem_greedy h

variable (T invoice po policy) in
/-- No line is reported by the first pass or when its candidates are scored. -/
def LinesResolved : Prop :=
  (exactPass T invoice po policy).issues = [] ∧
    ∀ i ∈ (exactPass T invoice po policy).unresolvedInvoice,
      candidateIssue T policy (exactPass T invoice po policy).availablePo i = none

theorem linesResolved_of_selected
    (h : ∀ i, i ∈ (selectedPairs T invoice po policy).map Pair.invoiceIndex) :
    LinesResolved T invoice po policy := by
  have hcases : ∀ i, i ∈ (exactPass T invoice po policy).selected.map Pair.invoiceIndex ∨
      i ∈ (exactPass T invoice po policy).unresolvedInvoice ∧
        candidateEdges T policy (exactPass T invoice po policy).availablePo i ≠ [] := by
    intro i
    obtain ⟨p, hp, rfl⟩ := List.mem_map.1 (h i)
    rcases mem_selectedPairs hp with hp | hp
    · exact Or.inl (List.mem_map_of_mem hp)
    · obtain ⟨hi, he⟩ := mem_rankedCandidates.1 hp
      exact Or.inr ⟨hi, List.ne_nil_of_mem he⟩
  constructor
  · rw [List.eq_nil_iff_forall_not_mem]
    intro c hc
    obtain ⟨-, -, i, -, hidx, hsel⟩ := exactPass_inv.issue c hc
    rcases hcases i with hi | ⟨hi, -⟩
    · exact hsel hi
    · exact ((exactPass_inv.unresolved i).1 hi).2 c hc hidx
  · intro i hi
    rcases hcases i with hs | ⟨-, hne⟩
    · exact absurd hs ((exactPass_inv.unresolved i).1 hi).1
    · exact candidateIssue_eq_none.2 hne

/-- The last loop reports nothing about lines that some check mentions. -/
theorem foldl_unmatchedStep {checks : List ValidationCheck} {is : List (Fin invoice.lineItems.length)}
    (h : ∀ i ∈ is, ∃ c ∈ checks, c.invoiceLineIndex = some (i : ℕ)) :
    is.foldl unmatchedStep checks = checks := by
  induction is with
  | nil => rfl
  | cons i is ih =>
    obtain ⟨c, hc, hci⟩ := h i (by simp)
    have hany : (checks.any fun c => c.invoiceLineIndex = some (i : ℕ)) = true :=
      List.any_eq_true.2 ⟨c, hc, by simpa using hci⟩
    rw [List.foldl_cons, unmatchedStep, if_pos hany]
    exact ih fun k hk => h k (by simp [hk])

variable (T invoice po policy) in
/-- The checks of the two passes over the invoice lines. -/
def lineIssues : List ValidationCheck :=
  (exactPass T invoice po policy).issues ++ (exactPass T invoice po policy).unresolvedInvoice.filterMap
    (candidateIssue T policy (exactPass T invoice po policy).availablePo)

/-- When every line is mentioned beforehand, a line that loses its candidates is not reported. -/
theorem candidatePairs_checks {checks : List ValidationCheck}
    (h : ∀ i : Fin invoice.lineItems.length, ∃ c ∈ checks, c.invoiceLineIndex = some (i : ℕ)) :
    (candidatePairs T invoice po policy checks).1 =
      checks ++ lineIssues T invoice po policy ++ poUnmatchedChecks (selectedPairs T invoice po policy) := by
  simp only [candidatePairs, lineIssues]
  rw [foldl_unmatchedStep]
  · simp only [List.append_assoc]
  · intro i _
    obtain ⟨c, hc, hci⟩ := h i
    exact ⟨c, by simp [hc], hci⟩

theorem perm_candidatePairs {checks : List ValidationCheck} :
    (candidatePairs T invoice po policy checks).2.Perm (selectedPairs T invoice po policy) :=
  List.perm_insertionSort _ _

theorem mem_lineIssues {c : ValidationCheck} (h : c ∈ lineIssues T invoice po policy) :
    c.status = .failed ∧ c.code ∈ [ReasonCode.invoiceLineUnmatched, .extraInvoiceLine,
      .descriptionBelowThreshold, .descriptionAmbiguous] := by
  rcases List.mem_append.1 h with h | h
  · obtain ⟨hs, hc, -⟩ := exactPass_inv.issue c h
    exact ⟨hs, by rcases hc with hc | hc <;> simp [hc]⟩
  · obtain ⟨i, -, hi⟩ := List.mem_filterMap.1 h
    unfold candidateIssue at hi
    split at hi
    · next heq =>
      obtain rfl := Option.some.inj hi
      obtain ⟨hs, -, hc⟩ := lineCandidates_error heq
      exact ⟨hs, List.mem_cons_of_mem _ hc⟩
    · cases hi

theorem clean_lineIssues : Clean (lineIssues T invoice po policy) ↔ LinesResolved T invoice po policy := by
  have hnil : Clean (lineIssues T invoice po policy) ↔ lineIssues T invoice po policy = [] := by
    constructor
    · intro h
      rw [List.eq_nil_iff_forall_not_mem]
      intro c hc
      have := h c hc
      rw [(mem_lineIssues hc).1] at this
      cases this
    · intro h; simp [h]
  rw [hnil]
  simp [lineIssues, LinesResolved, List.filterMap_eq_nil_iff]

theorem clean_poUnmatchedChecks {selected : List (Pair invoice po)} :
    Clean (poUnmatchedChecks selected) ↔ ∀ j, j ∈ selected.map Pair.poIndex := by
  simp only [Clean, poUnmatchedChecks, List.forall_mem_map, List.mem_filter, List.mem_finRange, true_and,
    decide_eq_true_eq]
  constructor
  · intro h j
    by_contra hj
    cases h j hj
  · intro h j hj
    exact absurd (h j) hj

theorem code_poUnmatchedChecks {selected : List (Pair invoice po)} {c : ValidationCheck}
    (h : c ∈ poUnmatchedChecks selected) : c.code = .poLineUnmatched := by
  obtain ⟨j, -, rfl⟩ := List.mem_map.1 h
  rfl

end

end InvoiceOps
