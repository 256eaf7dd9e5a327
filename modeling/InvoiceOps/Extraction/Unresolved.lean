import InvoiceOps.Extraction.Fusion
import InvoiceOps.Extraction.Location
import InvoiceOps.Matching.Decision

/-! What an association promises, and what happens without one (`extraction/hybrid/row_association.py`,
`extraction/hybrid/fusion.py`, `matching/validation.py`). A candidate row stands for a line only through words that
no other row uses and that are printed in no other line. A row or a line that stays alone leaves an issue on the
fused invoice, and an invoice with an issue is reviewed by both engines, whatever they match it with. -/

namespace InvoiceOps

open Calendar Lists

section

variable {E : GroundingOps} {document : DocumentText} {deterministic : List InvoiceLine} {rows : List GroundedRow}

/-- The words of the row's description are printed in the line at `line` and in no other. -/
def AnchoredAt (E : GroundingOps) (document : DocumentText) (deterministic : List InvoiceLine) (row : GroundedRow)
    (line : ℕ) : Prop :=
  ∃ description, row.description = some description ∧
    ∀ (i : ℕ) (l : InvoiceLine), deterministic[i]? = some l →
      ((tokens E description.evidence document ∩ tokens E l.description.evidence document).Nonempty ↔ i = line)

theorem mem_anchorMatches {spans : List EvidenceSpan} {i : ℕ} :
    i ∈ anchorMatches E document deterministic spans ↔ ∃ l, deterministic[i]? = some l ∧
      (tokens E spans document ∩ tokens E l.description.evidence document).Nonempty := by
  simp only [anchorMatches, List.mem_map, List.mem_filter, decide_eq_true_eq, Finset.not_disjoint_iff_nonempty_inter]
  constructor
  · rintro ⟨line, ⟨hmem, hshared⟩, rfl⟩
    exact ⟨line.1, List.mem_zipIdx_iff_getElem?.1 hmem, hshared⟩
  · rintro ⟨l, hl, hshared⟩
    exact ⟨(l, i), ⟨List.mem_zipIdx_iff_getElem?.2 hl, hshared⟩, rfl⟩

/-- What the first pass has found out about a row it proposes. -/
theorem rowOutcome_proposed {used : ℕ × ℕ → ℕ} {row : GroundedRow} {line : ℕ}
    (h : rowOutcome E document deterministic used row = .proposed line) :
    line < deterministic.length ∧ AnchoredAt E document deterministic row line ∧
      ∀ token ∈ rowTokens E document row, used token ≤ 1 := by
  simp only [rowOutcome] at h
  split at h
  · cases h
  · rename_i description hdescription
    split_ifs at h with _ _ _ _ hreused _
    split at h
    · cases h
    · rename_i l hlines
      split_ifs at h
      obtain rfl := RowOutcome.proposed.inj h
      have hmatch : ∀ i, i ∈ anchorMatches E document deterministic description.evidence ↔ i = l := by
        intro i
        rw [hlines, List.mem_singleton]
      refine ⟨?_, ⟨description, hdescription, fun i line hi => ?_⟩, ?_⟩
      · obtain ⟨line, hline, -⟩ := mem_anchorMatches.1 ((hmatch l).2 rfl)
        exact (List.getElem?_eq_some_iff.1 hline).1
      · rw [← hmatch i, mem_anchorMatches]
        constructor
        · exact fun hshared => ⟨line, hi, hshared⟩
        · rintro ⟨line', hi', hshared⟩
          obtain rfl := Option.some.inj (hi.symm.trans hi')
          exact hshared
      · intro token htoken
        by_contra hlt
        exact hreused ⟨token, htoken, not_le.1 hlt⟩
    · cases h

theorem rowOutcome_ne_associated {used : ℕ × ℕ → ℕ} {row : GroundedRow} :
    rowOutcome E document deterministic used row ≠ .rejected .associated := by
  intro h
  simp only [rowOutcome] at h
  repeat' split at h
  all_goals cases h

/-- A word that one row uses at most once is used by no row beside it. -/
theorem disjoint_rowTokens {c c' : ℕ} {row row' : GroundedRow} (hc : rows[c]? = some row) (hc' : rows[c']? = some row')
    (hne : c ≠ c') (hused : ∀ token ∈ rowTokens E document row, usage E document rows token ≤ 1) :
    Disjoint (rowTokens E document row) (rowTokens E document row') := by
  rw [Finset.disjoint_left]
  intro token htoken htoken'
  have hcount : 1 < usage E document rows token :=
    one_lt_countP hc hc' hne (decide_eq_true htoken) (decide_eq_true htoken')
  exact absurd (hused token htoken) (not_le.2 hcount)

/-- What the associations promise of a candidate row: the words that tie it to its line, and that they are its own. -/
structure RowAssociated (E : GroundingOps) (document : DocumentText) (deterministic : List InvoiceLine)
    (rows : List GroundedRow) (line candidate : ℕ) (row : GroundedRow) : Prop where
  inRange : line < deterministic.length
  anchored : AnchoredAt E document deterministic row line
  own : ∀ (other : ℕ) (row' : GroundedRow), rows[other]? = some row' → other ≠ candidate →
    Disjoint (rowTokens E document row) (rowTokens E document row')

theorem getElem?_rowOutcomes {c : ℕ} :
    (rowOutcomes E document deterministic rows)[c]? =
      rows[c]?.map (rowOutcome E document deterministic (usage E document rows)) := by
  rw [rowOutcomes, List.getElem?_map]

theorem mem_associateRows {line c : ℕ} :
    (line, c) ∈ (associateRows E deterministic rows document).1 ↔
      UniquelyAssociated (rowOutcomes E document deterministic rows) line c := mem_associations

theorem rowAssociated_of_mem {line c : ℕ} (h : (line, c) ∈ (associateRows E deterministic rows document).1) :
    ∃ row, rows[c]? = some row ∧ RowAssociated E document deterministic rows line c row := by
  obtain ⟨hat, -⟩ := mem_associateRows.1 h
  rw [getElem?_rowOutcomes, Option.map_eq_some_iff] at hat
  obtain ⟨row, hrow, hproposed⟩ := hat
  obtain ⟨hrange, hanchored, hused⟩ := rowOutcome_proposed hproposed
  exact ⟨row, hrow, hrange, hanchored, fun other row' hother hne => disjoint_rowTokens hrow hother hne.symm hused⟩

theorem eq_candidate_of_mem {line c c' : ℕ} (h : (line, c) ∈ (associateRows E deterministic rows document).1)
    (h' : (line, c') ∈ (associateRows E deterministic rows document).1) : c = c' :=
  (mem_associateRows.1 h').2 c (mem_associateRows.1 h).1

theorem eq_line_of_mem {line line' c : ℕ} (h : (line, c) ∈ (associateRows E deterministic rows document).1)
    (h' : (line', c) ∈ (associateRows E deterministic rows document).1) : line = line' := by
  have heq := (mem_associateRows.1 h).1.symm.trans (mem_associateRows.1 h').1
  exact RowOutcome.proposed.inj (Option.some.inj heq)

/-- A row is reported as associated exactly when its proposal stands. -/
theorem reason_associated_iff {c : ℕ} :
    (associateRows E deterministic rows document).2[c]? = some .associated ↔
      ∃ line, (line, c) ∈ (associateRows E deterministic rows document).1 := by
  simp only [mem_associateRows]
  simp only [associateRows, List.getElem?_map, Option.map_eq_some_iff]
  constructor
  · rintro ⟨outcome, hat, hreason⟩
    cases outcome with
    | rejected reason =>
      rw [getElem?_rowOutcomes, Option.map_eq_some_iff] at hat
      obtain ⟨row, -, hrejected⟩ := hat
      obtain rfl : reason = .associated := hreason
      exact absurd hrejected rowOutcome_ne_associated
    | proposed line =>
      simp only [rowReason] at hreason
      split_ifs at hreason with hcount
      exact ⟨line, hat, (count_eq_one_iff hat).1 hcount⟩
  · rintro ⟨line, hat, hunique⟩
    refine ⟨.proposed line, hat, ?_⟩
    rw [rowReason, if_pos ((count_eq_one_iff hat).2 hunique)]

/-- What `associate_rows` returns: associations that are injective in both directions, the reasons that go with them,
and for each associated row the words that tie it to its line. -/
structure AssociatesRows (E : GroundingOps) (document : DocumentText) (deterministic : List InvoiceLine)
    (rows : List GroundedRow) (associations : List (ℕ × ℕ)) (reasons : List RowReason) : Prop where
  lines : (associations.map Prod.fst).Nodup
  candidates : (associations.map Prod.snd).Nodup
  length : reasons.length = rows.length
  reason : ∀ c : ℕ, reasons[c]? = some .associated ↔ ∃ line, (line, c) ∈ associations
  row : ∀ line c, (line, c) ∈ associations →
    ∃ row, rows[c]? = some row ∧ RowAssociated E document deterministic rows line c row

theorem associateRows_spec (E : GroundingOps) (document : DocumentText) (deterministic : List InvoiceLine)
    (rows : List GroundedRow) :
    AssociatesRows E document deterministic rows (associateRows E deterministic rows document).1
      (associateRows E deterministic rows document).2 where
  lines := by
    refine (nodup_associations _).map_on fun a ha b hb heq => ?_
    have hb' : (a.1, b.2) ∈ (associateRows E deterministic rows document).1 := heq ▸ hb
    exact Prod.ext heq (eq_candidate_of_mem ha hb')
  candidates := by
    refine (nodup_associations _).map_on fun a ha b hb heq => ?_
    have hb' : (b.1, a.2) ∈ (associateRows E deterministic rows document).1 := heq ▸ hb
    exact Prod.ext (eq_line_of_mem ha hb') heq
  length := by simp [associateRows, rowOutcomes]
  reason _ := reason_associated_iff
  row _ _ := rowAssociated_of_mem

end

section

variable {E : GroundingOps} {threshold : ℚ} {deterministic : Invoice} {candidate : VisionInvoiceCandidate}
  {document : DocumentText}

/-- Some candidate row, or some line of the invoice, is in no association. -/
def Unresolved (E : GroundingOps) (threshold : ℚ) (deterministic : Invoice) (candidate : VisionInvoiceCandidate)
    (document : DocumentText) : Prop :=
  let associations := (fuseInvoice E threshold deterministic candidate document).rowAssociations
  (∃ c < candidate.lineItems.length, ∀ line, (line, c) ∉ associations) ∨
    ∃ line < deterministic.lineItems.length, ∀ c, (line, c) ∉ associations

/-- Distinct positions below `n` that leave one out are fewer than `n`. -/
theorem length_lt_of_missing {keys : List ℕ} {n i : ℕ} (hnd : keys.Nodup) (hlt : ∀ k ∈ keys, k < n) (hi : i < n)
    (hmissing : i ∉ keys) : keys.length < n := by
  have hsub : (i :: keys).Subperm (List.range n) := by
    refine (List.nodup_cons.2 ⟨hmissing, hnd⟩).subperm fun k hk => ?_
    rcases List.mem_cons.1 hk with rfl | hk
    · exact List.mem_range.2 hi
    · exact List.mem_range.2 (hlt k hk)
  simpa using hsub.length_le

theorem issue_of_unresolved (h : Unresolved E threshold deterministic candidate document) :
    .hybridRowAssociationUnresolved ∈ (fuseInvoice E threshold deterministic candidate document).invoice.extractionIssues := by
  have hspec := associateRows_spec E document deterministic.lineItems (candidateRows E threshold candidate document)
  have hreported : (∃ reason ∈ (associateRows E deterministic.lineItems
        (candidateRows E threshold candidate document) document).2, reason ≠ .associated) ∨
      deterministic.lineItems ≠ [] ∧ (associateRows E deterministic.lineItems
        (candidateRows E threshold candidate document) document).1.length ≠ deterministic.lineItems.length := by
    rcases h with ⟨c, hc, halone⟩ | ⟨line, hline, halone⟩
    · refine .inl ?_
      have hlt : c < (associateRows E deterministic.lineItems
          (candidateRows E threshold candidate document) document).2.length := by
        rw [hspec.length, candidateRows, List.length_map]
        exact hc
      refine ⟨_, List.getElem_mem hlt, fun heq => ?_⟩
      obtain ⟨line, hmem⟩ := (hspec.reason c).1 ((List.getElem?_eq_getElem hlt).trans (congrArg some heq))
      exact halone line hmem
    · refine .inr ⟨List.ne_nil_of_length_pos (Nat.zero_lt_of_lt hline), ?_⟩
      rw [← List.length_map (f := Prod.fst)]
      refine (length_lt_of_missing hspec.lines (fun k hk => ?_) hline fun hk => ?_).ne
      · obtain ⟨a, ha, rfl⟩ := List.mem_map.1 hk
        obtain ⟨row, -, hrow⟩ := hspec.row a.1 a.2 ha
        exact hrow.inRange
      · obtain ⟨a, ha, rfl⟩ := List.mem_map.1 hk
        exact halone a.2 ha
  show _ ∈ fusedIssues deterministic _ _
  unfold fusedIssues
  split_ifs with hnew
  · simp
  · by_contra hnone
    exact hnew ⟨hreported, hnone⟩

end

section

variable {T : TextOps} {invoice : Invoice} {po : PurchaseOrderRead}

theorem MatchDecision.eq_needsReview {d : MatchDecision} (h : d ≠ .matched) : d = .needsReview := by
  cases d with
  | matched => exact absurd rfl h
  | needsReview => rfl

theorem not_headerOk_of_issue [DecimalContext] {tol : Tolerances} {issue : ExtractionIssue}
    (h : issue ∈ invoice.extractionIssues) :
    ¬ HeaderOk invoice po tol := by
  intro hheader
  rw [hheader.financials.issues] at h
  cases h

theorem matchInvoice_of_issue [DecimalContext] {policy : MatchingPolicy} {issue : ExtractionIssue}
    (h : issue ∈ invoice.extractionIssues) :
    (matchInvoice T invoice po policy).decision = .needsReview := by
  refine MatchDecision.eq_needsReview fun hmatched => ?_
  exact not_headerOk_of_issue h (matched_iff.1 hmatched).header

theorem matchInvoiceThreeWay_of_issue [DecimalContext] {context : ThreeWayContextSnapshot}
    {policy : ThreeWayMatchingPolicy} {issue : ExtractionIssue} (h : issue ∈ invoice.extractionIssues) {r : MatchResult}
    {drafts : List AllocationDraft}
    (hresult : matchInvoiceThreeWay T invoice po context policy = some (r, drafts)) :
    r.decision = .needsReview ∧ drafts = [] := by
  have hreview : r.decision = .needsReview := by
    refine MatchDecision.eq_needsReview fun hmatched => ?_
    obtain ⟨outcomes, -, rfl, -⟩ := matchInvoiceThreeWay_eq_some.1 hresult
    exact not_headerOk_of_issue h (decision_threeWay.1 hmatched).1.1
  exact ⟨hreview, drafts_of_needsReview hresult hreview⟩

/-- Both engines review the invoice: the two-way engine for every purchase order, the three-way engine also for every
context, without an allocation. -/
structure AlwaysReviewed [DecimalContext] (T : TextOps) (invoice : Invoice) : Prop where
  twoWay : ∀ po policy, (matchInvoice T invoice po policy).decision = .needsReview
  threeWay : ∀ po context policy r drafts, matchInvoiceThreeWay T invoice po context policy = some (r, drafts) →
    r.decision = .needsReview ∧ drafts = []
  answered : ∀ po context policy, context.Answers po →
    ∃ r, matchInvoiceThreeWay T invoice po context policy = some (r, []) ∧ r.decision = .needsReview
  built : ∀ receipts allocations order policy documentId, ∃ r, matchInvoiceThreeWay T invoice (order : PurchaseOrder).toRead
    (snapshotOf receipts allocations order policy documentId) policy = some (r, []) ∧ r.decision = .needsReview

theorem alwaysReviewed_of_issue [DecimalContext] {issue : ExtractionIssue} (h : issue ∈ invoice.extractionIssues) :
    AlwaysReviewed T invoice := by
  have hanswered : ∀ po context policy, context.Answers po →
      ∃ r, matchInvoiceThreeWay T invoice po context policy = some (r, []) ∧ r.decision = .needsReview := by
    intro po context policy hcontext
    obtain ⟨r, drafts, hresult⟩ := exists_matchInvoiceThreeWay_of_answers T invoice policy hcontext
    obtain ⟨hreview, rfl⟩ := matchInvoiceThreeWay_of_issue h hresult
    exact ⟨r, hresult, hreview⟩
  exact ⟨fun po policy => matchInvoice_of_issue h, fun po context policy r drafts => matchInvoiceThreeWay_of_issue h,
    hanswered, fun receipts allocations order policy documentId =>
      hanswered _ _ _ (answers_snapshotOf receipts allocations order policy documentId)⟩

end

/-- `associate_rows` is injective in both directions, reports exactly the associated rows as associated, and ties a row
to a line by words that are its own. Where a row or a line stays alone, the fused invoice says so and is reviewed by
both engines. -/
theorem associated_or_reviewed [DecimalContext] (E : GroundingOps) (T : TextOps) :
    (∀ deterministic rows document, AssociatesRows E document deterministic rows
      (associateRows E deterministic rows document).1 (associateRows E deterministic rows document).2) ∧
    ∀ threshold deterministic candidate document, Unresolved E threshold deterministic candidate document →
      .hybridRowAssociationUnresolved ∈
        (fuseInvoice E threshold deterministic candidate document).invoice.extractionIssues ∧
      AlwaysReviewed T (fuseInvoice E threshold deterministic candidate document).invoice := by
  refine ⟨fun deterministic rows document => associateRows_spec E document deterministic rows, ?_⟩
  intro threshold deterministic candidate document hunresolved
  have hissue := issue_of_unresolved hunresolved
  exact ⟨hissue, alwaysReviewed_of_issue hissue⟩

/-- The model has read nothing. -/
def silentCandidate : VisionInvoiceCandidate :=
  let nothing : CandidateField := ⟨none, none, none⟩
  ⟨nothing, nothing, nothing, nothing, nothing, nothing, []⟩

theorem unresolved_silent : Unresolved asciiGrounding 92 filterInvoice silentCandidate ⟨[]⟩ := by
  have hnone : (fuseInvoice asciiGrounding 92 filterInvoice silentCandidate ⟨[]⟩).rowAssociations = [] := rfl
  refine .inr ⟨0, by decide, fun c => ?_⟩
  rw [hnone]
  exact List.not_mem_nil

theorem associated_or_reviewed_silent : Unresolved asciiGrounding 92 filterInvoice silentCandidate ⟨[]⟩ ∧
    AlwaysReviewed asciiTextOps (fuseInvoice asciiGrounding 92 filterInvoice silentCandidate ⟨[]⟩).invoice :=
  ⟨unresolved_silent, ((associated_or_reviewed asciiGrounding asciiTextOps).2 92 filterInvoice silentCandidate ⟨[]⟩
    unresolved_silent).2⟩

end InvoiceOps
