import InvoiceOps.Matching.ThreeWay

/-! Which lines of a matched invoice have an assignment. Two descriptions that are the same or alike enough make a
purchase-order line fit an invoice line, and a fixed order on the fitting pairs says which of them come first. There is
at most one placement of the lines in which every fitting pair left out shares a line with a placed pair that comes
before it; the engine finds it, and reports nothing about a line that has no place in it. A matched result therefore
covers the invoice exactly when the placement does, and in two-way matching, where every purchase-order line is
placed, when the invoice has no more lines than the order. -/

namespace InvoiceOps

open GreedyMatching

section

variable (T : TextOps) (invoice : Invoice) (po : PurchaseOrderRead) (tol : Tolerances)

def sameText (line : InvoiceLine) (orderLine : PurchaseOrderLine) : Bool :=
  (usableDescription T line).any fun description =>
    normalizeDescription T.toUnicode orderLine.description = normalizeDescription T.toUnicode description

/-- How alike the descriptions of the two lines are. -/
def likeness (line : InvoiceLine) (orderLine : PurchaseOrderLine) : ℚ :=
  T.similarity (line.description.value.getD "") orderLine.description

/-- The pairs of positions whose descriptions are the same or alike enough. -/
def fitting : Set (Fin invoice.lineItems.length × Fin po.lines.length) :=
  { e | sameText T (invoice.lineItems.get e.1) (po.lines.get e.2) = true ∨
    (usableDescription T (invoice.lineItems.get e.1)).isSome ∧
      tol.descriptionSimilarityThreshold ≤ likeness T (invoice.lineItems.get e.1) (po.lines.get e.2) }

/-- The same descriptions come first, by position; the others follow by descending likeness, by the number of the
purchase-order line and by position. -/
def placeKey (e : Fin invoice.lineItems.length × Fin po.lines.length) :
    (Fin invoice.lineItems.length ×ₗ Fin po.lines.length) ⊕ₗ
      (ℚᵒᵈ ×ₗ (ℤ ⊕ₗ String) ×ₗ Fin invoice.lineItems.length ×ₗ Fin po.lines.length) :=
  let line := invoice.lineItems.get e.1
  let orderLine := po.lines.get e.2
  if sameText T line orderLine then toLex (.inl (toLex e))
  else toLex (.inr (toLex (OrderDual.toDual (likeness T line orderLine),
    toLex (toLex (poLineSortKey T orderLine), toLex e))))

/-- Every invoice line has a place in a stable placement of the lines. -/
def EveryLinePlaced : Prop :=
  ∃ S, Stable (placeKey T invoice po) (fitting T invoice po tol) S ∧ ∀ i, ∃ j, (i, j) ∈ S

end

section

variable {T : TextOps} {invoice : Invoice} {po : PurchaseOrderRead} {tol : Tolerances}

def Pair.place (p : Pair invoice po) : Fin invoice.lineItems.length × Fin po.lines.length :=
  (p.invoiceIndex, p.poIndex)

/-- The purchase-order lines left with the description of this one are those the first loop looks at. -/
theorem mem_exactCandidates {line : InvoiceLine} {d : String} (hd : usableDescription T line = some d)
    {available : List (Fin po.lines.length)} {j : Fin po.lines.length} :
    j ∈ exactCandidates T available d ↔ j ∈ available ∧ sameText T line (po.lines.get j) = true := by
  simp [exactCandidates, sameText, hd]

/-- What the first loop has paired after the lines in `done`: when it has reported none of them, every purchase-order
line with one of their descriptions is taken, by that line or by one before it. -/
structure ExactPaired (done : List (Fin invoice.lineItems.length)) (s : ExactPass invoice po) : Prop where
  sorted : s.availablePo.Pairwise (· < ·)
  same : ∀ p ∈ s.selected, sameText T p.invoiceLine p.poLine = true
  described : s.issues = [] → ∀ i ∈ done, (usableDescription T (invoice.lineItems.get i)).isSome
  taken : s.issues = [] → ∀ i ∈ done, ∀ j, sameText T (invoice.lineItems.get i) (po.lines.get j) = true →
    ∃ p ∈ s.selected, p.poIndex = j ∧ p.invoiceIndex ≤ i

/-- A step that reports nothing: the lines before keep their pairs, and the new line has to be looked at. -/
theorem ExactPaired.snoc {done : List (Fin invoice.lineItems.length)} {s s' : ExactPass invoice po}
    {i : Fin invoice.lineItems.length} (h : ExactPaired (T := T) done s) (hinv : ExactInv done s)
    (hlast : ∀ k ∈ done, k < i) {d : String} (hd : usableDescription T (invoice.lineItems.get i) = some d)
    (hissues : s'.issues = s.issues) (hsorted : s'.availablePo.Pairwise (· < ·))
    (hselected : ∀ p, p ∈ s'.selected ↔ p ∈ s.selected ∨
      p.invoiceIndex = i ∧ exactCandidates T s.availablePo d = [p.poIndex] ∧ p = ⟨i, p.poIndex, 1, true⟩)
    (hfew : exactCandidates T s.availablePo d = [] ∨ ∃ j, exactCandidates T s.availablePo d = [j]) :
    ExactPaired (T := T) (done ++ [i]) s' where
  sorted := hsorted
  same := by
    intro p hp
    rcases (hselected p).1 hp with hp | ⟨hindex, hcandidates, -⟩
    · exact h.same p hp
    · have hmem : p.poIndex ∈ exactCandidates T s.availablePo d := by rw [hcandidates]; simp
      rw [Pair.invoiceLine, hindex]
      exact ((mem_exactCandidates hd).1 hmem).2
  described := by
    intro hnone k hk
    rcases List.mem_append.1 hk with hk | hk
    · exact h.described (hissues ▸ hnone) k hk
    · rw [List.mem_singleton.1 hk, hd]
      rfl
  taken := by
    intro hnone k hk j hsame
    rcases List.mem_append.1 hk with hk | hk
    · obtain ⟨p, hp, hj, hle⟩ := h.taken (hissues ▸ hnone) k hk j hsame
      exact ⟨p, (hselected p).2 (.inl hp), hj, hle⟩
    · obtain rfl := List.mem_singleton.1 hk
      by_cases hj : j ∈ s.availablePo
      · have hmem : j ∈ exactCandidates T s.availablePo d := (mem_exactCandidates hd).2 ⟨hj, hsame⟩
        rcases hfew with hnil | ⟨j', hone⟩
        · rw [hnil] at hmem
          cases hmem
        · obtain rfl : j = j' := by simpa [hone] using hmem
          exact ⟨⟨k, j, 1, true⟩, (hselected _).2 (.inr ⟨rfl, hone, rfl⟩), rfl, le_rfl⟩
      · rw [hinv.available, not_not] at hj
        obtain ⟨p, hp, hpo⟩ := List.mem_map.1 hj
        exact ⟨p, (hselected p).2 (.inl hp), hpo, (hlast _ (hinv.selected_done p hp).1).le⟩

theorem ExactPaired.report {done : List (Fin invoice.lineItems.length)} {s : ExactPass invoice po}
    {i : Fin invoice.lineItems.length} {c : ValidationCheck} {unresolved : List (Fin invoice.lineItems.length)}
    (h : ExactPaired (T := T) done s) : ExactPaired (T := T) (done ++ [i])
      { s with issues := s.issues ++ [c], unresolvedInvoice := unresolved } where
  sorted := h.sorted
  same := h.same
  described hnone := absurd hnone (by simp)
  taken hnone := absurd hnone (by simp)

theorem ExactPaired.step {done : List (Fin invoice.lineItems.length)} {s : ExactPass invoice po}
    {i : Fin invoice.lineItems.length} (h : ExactPaired (T := T) done s) (hinv : ExactInv done s)
    (hlast : ∀ k ∈ done, k < i) : ExactPaired (T := T) (done ++ [i]) (exactStep T tol s i) := by
  unfold exactStep
  simp only
  split
  · exact h.report
  · next d hd =>
    split
    · next hnil =>
      refine h.snoc hinv hlast hd rfl h.sorted (fun p => (or_iff_left ?_).symm) (.inl hnil)
      rintro ⟨-, hone, -⟩
      rw [hnil] at hone
      cases hone
    · next j hone =>
      refine h.snoc hinv hlast hd rfl (h.sorted.filter _) (fun p => ?_) (.inr ⟨j, hone⟩)
      rw [List.mem_append, List.mem_singleton, hone]
      refine or_congr_right ⟨?_, ?_⟩
      · rintro rfl
        exact ⟨rfl, rfl, rfl⟩
      · rintro ⟨-, hj, hp⟩
        rw [hp, List.singleton_inj.1 hj]
    · exact h.report

theorem exactPass_paired :
    ExactPaired (T := T) (List.finRange invoice.lineItems.length) (exactPass T invoice po tol) := by
  suffices hfold : ∀ (todo done : List (Fin invoice.lineItems.length)) (s : ExactPass invoice po),
      (done ++ todo).Pairwise (· < ·) → ExactInv done s → ExactPaired (T := T) done s →
      ExactPaired (T := T) (done ++ todo) (todo.foldl (exactStep T tol) s) by
    exact hfold (List.finRange _) [] _ (List.pairwise_lt_finRange _) exactInv_initial
      ⟨List.pairwise_lt_finRange _, by simp, by simp, by simp⟩
  intro todo
  induction todo with
  | nil =>
    intro done s _ _ h
    simpa using h
  | cons i todo ih =>
    intro done s hsorted hinv h
    have hlast : ∀ k ∈ done, k < i := fun k hk => (List.pairwise_append.1 hsorted).2.2 k hk i (by simp)
    have hinv' : ExactInv (done ++ [i]) (exactStep T tol s i) := hinv.step fun hi => lt_irrefl i (hlast i hi)
    simpa using ih (done ++ [i]) _ (by simpa using hsorted) hinv' (h.step hinv hlast)

/-- Candidates of one rank are those of one invoice line, in the order of the purchase-order lines. -/
theorem pairwise_rankedCandidates : (rankedCandidates T invoice po tol).Pairwise fun p q =>
    Pair.RankLe T p q ∧ (Pair.RankLe T q p → p.poIndex < q.poIndex) := by
  have hline : ∀ i : Fin invoice.lineItems.length,
      (candidateEdges T tol (exactPass T invoice po tol).availablePo i).Pairwise fun p q =>
        Pair.RankLe T p q → Pair.RankLe T q p → p.poIndex < q.poIndex := by
    intro i
    unfold candidateEdges
    split
    · exact .nil
    · next es hes =>
      rw [(lineCandidates_ok hes).1]
      refine List.Pairwise.filter _ (List.Pairwise.imp (fun h _ => h.2) (Lists.pairwise_insertionSort_of_ties ?_))
      refine List.pairwise_map.2 ?_
      exact exactPass_paired.sorted.imp fun hjk _ _ => hjk
  refine Lists.pairwise_insertionSort_of_ties (List.pairwise_flatMap.2 ⟨fun i _ => hline i, ?_⟩)
  refine exactPass_inv.unresolved_nodup.imp fun {i k} hik p hp q hq hpq hqp => absurd ?_ hik
  have hkey : rankKey T p = rankKey T q := le_antisymm (rankLe_iff.1 hpq) (rankLe_iff.1 hqp)
  simp only [rankKey, EmbeddingLike.apply_eq_iff_eq, Prod.mk.injEq] at hkey
  rw [← (mem_eligible (mem_candidateEdges hp)).1, hkey.2.2, (mem_eligible (mem_candidateEdges hq)).1]

theorem candidate_spec {p : Pair invoice po} (hnone : (exactPass T invoice po tol).issues = [])
    (h : p ∈ rankedCandidates T invoice po tol) : p.place ∈ fitting T invoice po tol ∧
      p.score = likeness T p.invoiceLine p.poLine ∧ sameText T p.invoiceLine p.poLine = false := by
  obtain ⟨hi, hp⟩ := mem_rankedCandidates.1 h
  have hscore : p.score = likeness T p.invoiceLine p.poLine := by
    rw [score_of_mem_candidateEdges hp]
    rfl
  obtain ⟨-, havailable, -, hthreshold⟩ := mem_eligible (mem_candidateEdges hp)
  refine ⟨.inr ⟨exactPass_paired.described hnone _ (List.mem_finRange _), hscore ▸ hthreshold⟩, hscore, ?_⟩
  by_contra hsame
  obtain ⟨q, hq, hpo, -⟩ := exactPass_paired.taken hnone p.invoiceIndex (List.mem_finRange _) p.poIndex
    (eq_true_of_ne_false hsame)
  exact (exactPass_inv.available _).1 havailable (hpo ▸ List.mem_map_of_mem hq)

theorem placeKey_of_same {e : Fin invoice.lineItems.length × Fin po.lines.length}
    (h : sameText T (invoice.lineItems.get e.1) (po.lines.get e.2) = true) :
    placeKey T invoice po e = toLex (.inl (toLex e)) := if_pos h

theorem placeKey_of_other {e : Fin invoice.lineItems.length × Fin po.lines.length}
    (h : sameText T (invoice.lineItems.get e.1) (po.lines.get e.2) = false) :
    placeKey T invoice po e = toLex (.inr (toLex (OrderDual.toDual
      (likeness T (invoice.lineItems.get e.1) (po.lines.get e.2)),
        toLex (toLex (poLineSortKey T (po.lines.get e.2)), toLex e)))) := if_neg (by rw [h]; exact Bool.false_ne_true)

theorem placeKey_lt_of_same {e e' : Fin invoice.lineItems.length × Fin po.lines.length}
    (h : sameText T (invoice.lineItems.get e.1) (po.lines.get e.2) = true)
    (h' : sameText T (invoice.lineItems.get e'.1) (po.lines.get e'.2) = false) :
    placeKey T invoice po e < placeKey T invoice po e' := by
  rw [placeKey_of_same h, placeKey_of_other h']
  exact Sum.Lex.inl_lt_inr _ _

theorem placeKey_lt_of_rank {p q : Pair invoice po} (hp : p.score = likeness T p.invoiceLine p.poLine)
    (hq : q.score = likeness T q.invoiceLine q.poLine) (hp' : sameText T p.invoiceLine p.poLine = false)
    (hq' : sameText T q.invoiceLine q.poLine = false) (h : Pair.RankLe T p q)
    (htie : Pair.RankLe T q p → p.poIndex < q.poIndex) :
    placeKey T invoice po p.place < placeKey T invoice po q.place := by
  have hkey : ∀ {r : Pair invoice po}, r.score = likeness T r.invoiceLine r.poLine →
      sameText T r.invoiceLine r.poLine = false → placeKey T invoice po r.place =
        toLex (.inr (toLex (OrderDual.toDual r.score,
          toLex (toLex (poLineSortKey T r.poLine), toLex (r.invoiceIndex, r.poIndex))))) := by
    intro r hr hr'
    rw [placeKey_of_other (e := r.place) hr', hr]
    rfl
  rw [hkey hp hp', hkey hq hq']
  refine Sum.Lex.inr_strictMono ?_
  simp only [Prod.Lex.toLex_lt_toLex, OrderDual.toDual_lt_toDual, EmbeddingLike.apply_eq_iff_eq]
  rcases h with hscore | ⟨hscore, hnumber | ⟨hnumber, hindex⟩⟩
  · exact .inl hscore
  · exact .inr ⟨hscore.symm, .inl (sortKeyLt_iff.1 hnumber)⟩
  · refine .inr ⟨hscore.symm, .inr ⟨hnumber, ?_⟩⟩
    rcases hindex.lt_or_eq with hlt | heq
    · exact .inl hlt
    · exact .inr ⟨heq, htie (.inr ⟨hscore.symm, .inr ⟨hnumber.symm, heq.ge⟩⟩)⟩

theorem invoiceIndex_selectedPairs {p q : Pair invoice po} (hp : p ∈ selectedPairs T invoice po tol)
    (hq : q ∈ selectedPairs T invoice po tol) (h : p.invoiceIndex = q.invoiceIndex) : p = q :=
  List.inj_on_of_nodup_map selectedPairs_oneToOne.left hp hq h

theorem poIndex_selectedPairs {p q : Pair invoice po} (hp : p ∈ selectedPairs T invoice po tol)
    (hq : q ∈ selectedPairs T invoice po tol) (h : p.poIndex = q.poIndex) : p = q :=
  List.inj_on_of_nodup_map selectedPairs_oneToOne.right hp hq h

theorem stable_selectedPairs (h : LinesResolved T invoice po tol) :
    Stable (placeKey T invoice po) (fitting T invoice po tol)
      { e | ∃ p ∈ selectedPairs T invoice po tol, p.place = e } where
  subset := by
    rintro - ⟨p, hp, rfl⟩
    rcases mem_selectedPairs hp with hp | hp
    · exact .inl (exactPass_paired.same p hp)
    · exact (candidate_spec h.1 hp).1
  left := by
    rintro - ⟨p, hp, rfl⟩ - ⟨q, hq, rfl⟩ hindex
    rw [invoiceIndex_selectedPairs hp hq hindex]
  right := by
    rintro - ⟨p, hp, rfl⟩ - ⟨q, hq, rfl⟩ hindex
    rw [poIndex_selectedPairs hp hq hindex]
  blocked := by
    rintro ⟨i, j⟩ hfits hout
    have hexact : (exactPass T invoice po tol).selected ⊆ selectedPairs T invoice po tol :=
      (prefix_greedy _ _).subset
    by_cases hsame : sameText T (invoice.lineItems.get i) (po.lines.get j) = true
    · -- the purchase-order line is taken by an invoice line of the same description, which comes before
      obtain ⟨p, hp, rfl, hle⟩ := exactPass_paired.taken h.1 i (List.mem_finRange _) j hsame
      have hlt : p.invoiceIndex < i := hle.lt_of_ne fun heq => hout ⟨p, hexact hp, by rw [← heq]; rfl⟩
      refine ⟨p.place, ⟨p, hexact hp, rfl⟩, .inr rfl, ?_⟩
      rw [placeKey_of_same (e := (i, p.poIndex)) hsame,
        placeKey_of_same (e := p.place) (exactPass_paired.same p hp)]
      exact Sum.Lex.inl_strictMono (Prod.Lex.toLex_lt_toLex.2 (.inl hlt))
    · have hother : sameText T (invoice.lineItems.get i) (po.lines.get j) = false :=
        eq_false_of_ne_true hsame
      by_cases hused : i ∈ (exactPass T invoice po tol).selected.map Pair.invoiceIndex ∨
          j ∈ (exactPass T invoice po tol).selected.map Pair.poIndex
      · rcases hused with hi | hj
        · obtain ⟨p, hp, rfl⟩ := List.mem_map.1 hi
          exact ⟨p.place, ⟨p, hexact hp, rfl⟩, .inl rfl, placeKey_lt_of_same (e := p.place)
            (exactPass_paired.same p hp) hother⟩
        · obtain ⟨p, hp, rfl⟩ := List.mem_map.1 hj
          exact ⟨p.place, ⟨p, hexact hp, rfl⟩, .inr rfl, placeKey_lt_of_same (e := p.place)
            (exactPass_paired.same p hp) hother⟩
      · -- both lines are free after the first loop, so the pair is a candidate
        obtain ⟨hi, hj⟩ := not_or.1 hused
        have hunresolved : i ∈ (exactPass T invoice po tol).unresolvedInvoice :=
          (exactPass_inv.unresolved i).2 ⟨hi, by simp [h.1]⟩
        obtain ⟨-, hlike⟩ := hfits.resolve_left hsame
        have hedge : (⟨i, j, likeness T (invoice.lineItems.get i) (po.lines.get j), false⟩ : Pair invoice po) ∈
            rankedCandidates T invoice po tol := by
          refine mem_rankedCandidates.2 ⟨hunresolved, ?_⟩
          have hedges := candidateIssue_eq_none.1 (h.2 i hunresolved)
          unfold candidateEdges at hedges ⊢
          split at hedges
          · exact absurd rfl hedges
          · next es hes =>
            simp only [hes]
            rw [(lineCandidates_ok hes).1]
            refine List.mem_filter.2 ⟨(List.mem_insertionSort _).2 (List.mem_map.2 ⟨j, ?_, rfl⟩), by simpa using hlike⟩
            exact (exactPass_inv.available j).2 hj
        have hleft : (⟨i, j, likeness T (invoice.lineItems.get i) (po.lines.get j), false⟩ : Pair invoice po) ∉
            selectedPairs T invoice po tol := fun hmem => hout ⟨_, hmem, rfl⟩
        obtain ⟨e, he, hshare, hbefore⟩ := exists_before_of_notMem_greedy pairwise_rankedCandidates hedge hleft
        refine ⟨e.place, ⟨e, he, rfl⟩, hshare, ?_⟩
        rcases mem_selectedPairs he with hsel | hcand
        · exact placeKey_lt_of_same (e := e.place) (exactPass_paired.same e hsel) hother
        · obtain ⟨-, hscore, hdiffers⟩ := candidate_spec h.1 hcand
          rcases hbefore with hsel | ⟨hrank, htie⟩
          · exact placeKey_lt_of_same (e := e.place) (exactPass_paired.same e hsel) hother
          · exact placeKey_lt_of_rank (q := ⟨i, j, _, false⟩) hscore rfl hdiffers hother hrank htie

theorem everyLinePlaced_iff (h : LinesResolved T invoice po tol) :
    EveryLinePlaced T invoice po tol ↔ ∀ i, i ∈ (selectedPairs T invoice po tol).map Pair.invoiceIndex := by
  constructor
  · rintro ⟨S, hS, hall⟩ i
    obtain ⟨j, hj⟩ := hall i
    rw [hS.unique (stable_selectedPairs h)] at hj
    obtain ⟨p, hp, hplace⟩ := hj
    exact List.mem_map.2 ⟨p, hp, congrArg Prod.fst hplace⟩
  · intro hall
    refine ⟨_, stable_selectedPairs h, fun i => ?_⟩
    obtain ⟨p, hp, rfl⟩ := List.mem_map.1 (hall i)
    exact ⟨p.poIndex, p, hp, rfl⟩

end

/-- A matched two-way result is a bijection between the lines, and a matched three-way result has
every invoice line exactly once and no purchase-order line twice. -/
def MatchedCovers [DecimalContext] (T : TextOps) (invoice : Invoice) (po : PurchaseOrderRead) (policy : MatchingPolicy)
    (context : ThreeWayContextSnapshot) (threeWayPolicy : ThreeWayMatchingPolicy) : Prop :=
  ((matchInvoice T invoice po policy).decision = .matched →
    CoversInvoice invoice (matchInvoice T invoice po policy).lineAssignments ∧
      CoversOrder po (matchInvoice T invoice po policy).lineAssignments) ∧
  ∀ r drafts, matchInvoiceThreeWay T invoice po context threeWayPolicy = some (r, drafts) →
    r.decision = .matched →
      CoversInvoice invoice r.lineAssignments ∧ (r.lineAssignments.map (·.poLineId)).Nodup

/-- All purchase-order lines of a matched two-way result are used, each by one invoice line. -/
theorem twoWay_covers_iff [DecimalContext] {T : TextOps} {invoice : Invoice} {po : PurchaseOrderRead}
    {policy : MatchingPolicy} (h : (matchInvoice T invoice po policy).decision = .matched) :
    (CoversInvoice invoice (matchInvoice T invoice po policy).lineAssignments ∧
      CoversOrder po (matchInvoice T invoice po policy).lineAssignments) ↔
    invoice.lineItems.length ≤ po.lines.length := by
  have hok := matched_iff.1 h
  have hone : OneToOne Pair.invoiceIndex Pair.poIndex (selectedPairs T invoice po policy.toTolerances) :=
    selectedPairs_oneToOne
  have hlength : po.lines.length = (selectedPairs T invoice po policy.toTolerances).length := by
    have hle := (Lists.forall_mem_iff_le_length hone.right).1 hok.poLines
    have hge := hone.right.length_le_card
    rw [List.length_map] at hle hge
    rw [Fintype.card_fin] at hge
    exact le_antisymm hle hge
  rw [coversInvoice_iff represents_matchInvoice, coversOrder_iff represents_matchInvoice,
    and_iff_left hok.poLines, Lists.forall_mem_iff_le_length hone.left, List.length_map, hlength]

theorem threeWay_covers_iff [DecimalContext] {T : TextOps} {invoice : Invoice} {po : PurchaseOrderRead}
    {context : ThreeWayContextSnapshot} {policy : ThreeWayMatchingPolicy} (hids : (po.lines.map (·.id)).Nodup)
    {r : MatchResult} {drafts : List AllocationDraft}
    (h : matchInvoiceThreeWay T invoice po context policy = some (r, drafts)) (hm : r.decision = .matched) :
    (CoversInvoice invoice r.lineAssignments ∧ (r.lineAssignments.map (·.poLineId)).Nodup) ↔
    EveryLinePlaced T invoice po policy.toTolerances := by
  have hok := (three_way_matched_iff hids).1 ⟨r, drafts, h, hm⟩
  rw [coversInvoice_iff (represents_threeWay h), and_iff_left (nodup_poLineId hids (represents_threeWay h)),
    everyLinePlaced_iff hok.resolved]

/-- Matched results cover all invoice lines when the invoice has no more lines than the order and each of them has its
place; and no matched result covers an invoice that has more lines, or three-way a line without a place. -/
theorem matchedCovers_iff [DecimalContext] (T : TextOps) (invoice : Invoice) (po : PurchaseOrderRead)
    (policy : MatchingPolicy) (context : ThreeWayContextSnapshot) (threeWayPolicy : ThreeWayMatchingPolicy)
    (hids : (po.lines.map (·.id)).Nodup) :
    (invoice.lineItems.length ≤ po.lines.length → EveryLinePlaced T invoice po threeWayPolicy.toTolerances →
      MatchedCovers T invoice po policy context threeWayPolicy) ∧
    ((matchInvoice T invoice po policy).decision = .matched →
      ((CoversInvoice invoice (matchInvoice T invoice po policy).lineAssignments ∧
        CoversOrder po (matchInvoice T invoice po policy).lineAssignments) ↔
      invoice.lineItems.length ≤ po.lines.length)) ∧
    ∀ r drafts, matchInvoiceThreeWay T invoice po context threeWayPolicy = some (r, drafts) →
      r.decision = .matched →
      ((CoversInvoice invoice r.lineAssignments ∧ (r.lineAssignments.map (·.poLineId)).Nodup) ↔
      EveryLinePlaced T invoice po threeWayPolicy.toTolerances) :=
  ⟨fun hfew hplaced => ⟨fun hm => (twoWay_covers_iff hm).2 hfew,
    fun _ _ h hm => (threeWay_covers_iff hids h hm).2 hplaced⟩,
    twoWay_covers_iff, fun _ _ => threeWay_covers_iff hids⟩

def filterReceived : ThreeWayContextSnapshot where
  purchaseOrderId := Uuid.ofNat 1
  policyVersion := "three-way-v3"
  lines :=
    [{ purchaseOrderLineId := Uuid.ofNat 2
       orderedQuantity := "1"
       activeReceipts := [⟨Uuid.ofNat 3, "1", .first⟩]
       reversedReceipts := []
       reversalIds := []
       priorAllocations := []
       currentInvoiceAllocations := []
       effectiveReceivedQuantity := "1"
       previouslyAllocatedQuantity := "0"
       availableQuantity := "1" }]

/-- The invoice for two filters is matched against the order for one, and its second line is assigned to nothing. -/
theorem filterInvoice_not_covered : (filterOrder.lines.map (·.id)).Nodup ∧
    (matchInvoice asciiTextOps filterInvoice filterOrder .default).decision = .matched ∧
    ¬ MatchedCovers asciiTextOps filterInvoice filterOrder .default filterReceived .default := by
  obtain ⟨hmatched, hcount⟩ : (matchInvoice asciiTextOps filterInvoice filterOrder .default).decision = .matched ∧
      (matchInvoice asciiTextOps filterInvoice filterOrder .default).lineAssignments.length = 1 := by
    decide +kernel
  refine ⟨by decide, hmatched, fun h => ?_⟩
  have hlength := (h.1 hmatched).1.length_eq
  rw [List.length_map, hcount, List.length_range] at hlength
  cases hlength

theorem oneFilter_placed : EveryLinePlaced asciiTextOps oneFilterInvoice filterOrder Tolerances.default := by
  have hplace : ∀ e : Fin oneFilterInvoice.lineItems.length × Fin filterOrder.lines.length,
      e = (⟨0, by decide⟩, ⟨0, by decide⟩) := by decide
  refine ⟨{ e | e = (⟨0, by decide⟩, ⟨0, by decide⟩) }, ⟨?_, ?_, ?_, ?_⟩, fun i => ⟨⟨0, by decide⟩, hplace _⟩⟩
  · rintro e rfl
    exact .inr ⟨by decide +kernel, by decide +kernel⟩
  · exact fun e he e' he' _ => he.trans he'.symm
  · exact fun e he e' he' _ => he.trans he'.symm
  · exact fun e _ hout => absurd (hplace e) hout

/-- One filter is billed, ordered and received: both results are matched and cover the invoice. -/
theorem matchedCovers_iff_oneFilter :
    (matchInvoice asciiTextOps oneFilterInvoice filterOrder .default).decision = .matched ∧
    (matchInvoiceThreeWay asciiTextOps oneFilterInvoice filterOrder filterReceived .default).map (·.1.decision) =
      some .matched ∧
    MatchedCovers asciiTextOps oneFilterInvoice filterOrder .default filterReceived .default :=
  ⟨by decide +kernel, by decide +kernel, (matchedCovers_iff asciiTextOps oneFilterInvoice filterOrder .default
    filterReceived .default (by decide)).1 (by decide) oneFilter_placed⟩

end InvoiceOps
