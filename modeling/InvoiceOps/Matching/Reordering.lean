import InvoiceOps.Matching.Monotone

/-! Two-way matching of the same invoice and order with their lines in another order. The first pass takes the lines
one after another and uses up purchase-order lines, the second ranks all candidates and takes the best first, and
both break ties by position. When no two extracted descriptions are equal, no two purchase-order lines have the same
number and no two invoice lines score the same on one purchase-order line, no tie is left to break: the pairs are the
same in every order. The sum of the line totals is rounded after each line, so it may depend on the order, and with it
the check of the subtotal; all other checks fail in every order or in none. -/

namespace InvoiceOps

open GreedyMatching
open DecimalContext (Scaled roundedSum roundedSum_eq_sum)

section

variable (T : TextOps) {invoice : Invoice} {po : PurchaseOrderRead}

/-- No two lines of the invoice have extracted descriptions that normalise to the same text. -/
def DistinctDescriptions (lines : List InvoiceLine) : Prop :=
  lines.Pairwise fun l m => ∀ d e, l.description.Holds d → m.description.Holds e →
    normalizeDescription T.toUnicode d ≠ normalizeDescription T.toUnicode e

/-- No two lines of the invoice score the same on one line of the order. -/
def DistinctScores (lines : List InvoiceLine) (orderLines : List PurchaseOrderLine) : Prop :=
  lines.Pairwise fun l m => ∀ d e, l.description.Holds d → m.description.Holds e →
    ∀ line ∈ orderLines, T.similarity d line.description ≠ T.similarity e line.description

/-- The purchase-order lines with the description of this line. -/
def equalLines (po : PurchaseOrderRead) (line : InvoiceLine) : List (Fin po.lines.length) :=
  (usableDescription T line).elim [] (exactCandidates T (List.finRange po.lines.length))

/-- The pair the first pass makes of a line, when nothing it needs is used up. -/
def exactPair (i : Fin invoice.lineItems.length) : Option (Pair invoice po) :=
  match equalLines T po (invoice.lineItems.get i) with
  | [j] => some ⟨i, j, 1, true⟩
  | _ => none

/-- What the first pass reports of a line. -/
def exactIssue (po : PurchaseOrderRead) (line : InvoiceLine) : Option ReasonCode :=
  if usableDescription T line = none then some .invoiceLineUnmatched
  else if 2 ≤ (equalLines T po line).length then some .descriptionAmbiguous
  else none

variable {T} {policy : Tolerances}

theorem holds_of_usableDescription {line : InvoiceLine} {d : String} (h : usableDescription T line = some d) :
    line.description.Holds d :=
  ExtractedField.extractedValue_eq_some.1 (Option.filter_eq_some_iff.1 h).1

theorem DistinctDescriptions.eq {lines : List InvoiceLine} (h : DistinctDescriptions T lines)
    {i k : Fin lines.length} {d e : String} (hd : (lines.get i).description.Holds d)
    (he : (lines.get k).description.Holds e)
    (hsame : normalizeDescription T.toUnicode d = normalizeDescription T.toUnicode e) : i = k := by
  rw [DistinctDescriptions, List.pairwise_iff_get] at h
  rcases lt_trichotomy i k with hlt | heq | hlt
  · exact absurd hsame (h i k hlt d e hd he)
  · exact heq
  · exact absurd hsame.symm (h k i hlt e d he hd)

theorem DistinctScores.eq {lines : List InvoiceLine} {orderLines : List PurchaseOrderLine}
    (h : DistinctScores T lines orderLines) {i k : Fin lines.length} {d e : String} {line : PurchaseOrderLine}
    (hline : line ∈ orderLines) (hd : (lines.get i).description.Holds d) (he : (lines.get k).description.Holds e)
    (hsame : T.similarity d line.description = T.similarity e line.description) : i = k := by
  rw [DistinctScores, List.pairwise_iff_get] at h
  rcases lt_trichotomy i k with hlt | heq | hlt
  · exact absurd hsame (h i k hlt d e hd he line hline)
  · exact heq
  · exact absurd hsame.symm (h k i hlt e d he hd line hline)

theorem exactPair_eq_some {i : Fin invoice.lineItems.length} {p : Pair invoice po} :
    exactPair T i = some p ↔ equalLines T po (invoice.lineItems.get i) = [p.poIndex] ∧
      p = ⟨i, p.poIndex, 1, true⟩ := by
  unfold exactPair
  split
  · next j hj =>
    rw [hj, Option.some.injEq]
    constructor
    · rintro rfl
      exact ⟨rfl, rfl⟩
    · rintro ⟨hsame, hp⟩
      rw [hp, List.singleton_inj.1 hsame]
  · next hne =>
    refine iff_of_false (by simp) ?_
    rintro ⟨hsame, -⟩
    exact hne p.poIndex hsame

/-- The state of the first loop after the lines in `done`, as if nothing had been used up. -/
structure ExactFree (done : List (Fin invoice.lineItems.length)) (s : ExactPass invoice po) : Prop where
  selected : ∀ p, p ∈ s.selected ↔ p.invoiceIndex ∈ done ∧ exactPair T p.invoiceIndex = some p
  issues : ∀ i code, (∃ c ∈ s.issues, c.invoiceLineIndex = some i.val ∧ c.code = code) ↔
    i ∈ done ∧ exactIssue T po (invoice.lineItems.get i) = some code

/-- No purchase-order line with the description of a line still to come is used up. -/
theorem exactCandidates_perm (hdistinct : DistinctDescriptions T invoice.lineItems)
    {done : List (Fin invoice.lineItems.length)} {s : ExactPass invoice po} (hinv : ExactInv done s)
    (h : ExactFree (T := T) done s) {i : Fin invoice.lineItems.length} (hi : i ∉ done) {d : String}
    (hd : usableDescription T (invoice.lineItems.get i) = some d) :
    (exactCandidates T s.availablePo d).Perm (equalLines T po (invoice.lineItems.get i)) := by
  rw [equalLines, hd, Option.elim_some]
  refine (List.perm_ext_iff_of_nodup (hinv.available_nodup.filter _) ((List.nodup_finRange _).filter _)).2 fun j => ?_
  simp only [List.mem_filter, List.mem_finRange, true_and, hinv.available, and_iff_right_iff_imp]
  intro hj hused
  obtain ⟨p, hp, rfl⟩ := List.mem_map.1 hused
  obtain ⟨hdone, hpair⟩ := (h.selected p).1 hp
  obtain ⟨hequal, -⟩ := exactPair_eq_some.1 hpair
  have hmem : p.poIndex ∈ equalLines T po (invoice.lineItems.get p.invoiceIndex) := by rw [hequal]; simp
  unfold equalLines at hmem
  cases hd' : usableDescription T (invoice.lineItems.get p.invoiceIndex) with
  | none =>
    rw [hd'] at hmem
    exact List.not_mem_nil hmem
  | some d' =>
    rw [hd', Option.elim_some] at hmem
    have hsame : normalizeDescription T.toUnicode d = normalizeDescription T.toUnicode d' :=
      (of_decide_eq_true hj).symm.trans (of_decide_eq_true (List.mem_filter.1 hmem).2)
    have heq : i = p.invoiceIndex :=
      hdistinct.eq (holds_of_usableDescription hd) (holds_of_usableDescription hd') hsame
    exact hi (heq ▸ hdone)

theorem exactPair_index {i : Fin invoice.lineItems.length} {p : Pair invoice po} (h : exactPair T i = some p) :
    p.invoiceIndex = i := by
  rw [(exactPair_eq_some.1 h).2]

/-- One more line: it adds its own pair and its own report. -/
theorem ExactFree.snoc {done : List (Fin invoice.lineItems.length)} {s s' : ExactPass invoice po}
    {i : Fin invoice.lineItems.length} (h : ExactFree (T := T) done s)
    (hselected : ∀ p, p ∈ s'.selected ↔ p ∈ s.selected ∨ exactPair T i = some p)
    (hissues : ∀ k code, (∃ c ∈ s'.issues, c.invoiceLineIndex = some k ∧ c.code = code) ↔
      (∃ c ∈ s.issues, c.invoiceLineIndex = some k ∧ c.code = code) ∨
        k = i.val ∧ exactIssue T po (invoice.lineItems.get i) = some code) :
    ExactFree (T := T) (done ++ [i]) s' where
  selected := by
    intro p
    rw [hselected, h.selected, List.mem_append, List.mem_singleton]
    constructor
    · rintro (⟨hdone, hp⟩ | hp)
      · exact ⟨.inl hdone, hp⟩
      · rw [exactPair_index hp]
        exact ⟨.inr rfl, hp⟩
    · rintro ⟨hdone | rfl, hp⟩
      · exact .inl ⟨hdone, hp⟩
      · exact .inr hp
  issues := by
    intro k code
    rw [hissues, h.issues, List.mem_append, List.mem_singleton]
    constructor
    · rintro (⟨hdone, hk⟩ | ⟨hk, hcode⟩)
      · exact ⟨.inl hdone, hk⟩
      · obtain rfl := Fin.ext hk
        exact ⟨.inr rfl, hcode⟩
    · rintro ⟨hdone | rfl, hk⟩
      · exact .inl ⟨hdone, hk⟩
      · exact .inr ⟨rfl, hk⟩

theorem ExactFree.step (hdistinct : DistinctDescriptions T invoice.lineItems)
    {done : List (Fin invoice.lineItems.length)} {s : ExactPass invoice po} {i : Fin invoice.lineItems.length}
    (hinv : ExactInv done s) (h : ExactFree (T := T) done s) (hi : i ∉ done) :
    ExactFree (T := T) (done ++ [i]) (exactStep T policy s i) := by
  have hreport : ∀ {c : ValidationCheck} {code : ReasonCode}, c.invoiceLineIndex = some i.val → c.code = code →
      exactIssue T po (invoice.lineItems.get i) = some code → ∀ k code',
      (∃ x ∈ s.issues ++ [c], x.invoiceLineIndex = some k ∧ x.code = code') ↔
        (∃ x ∈ s.issues, x.invoiceLineIndex = some k ∧ x.code = code') ∨
          k = i.val ∧ exactIssue T po (invoice.lineItems.get i) = some code' := by
    intro c code hindex hcode hissue k code'
    simp only [List.mem_append, List.mem_singleton, or_and_right, exists_or, exists_eq_left, hindex, hcode, hissue,
      Option.some.injEq]
    exact or_congr_right (and_congr_left' eq_comm)
  unfold exactStep
  simp only
  split
  · next hnone =>
    have hequal : equalLines T po (invoice.lineItems.get i) = [] := by rw [equalLines, hnone, Option.elim_none]
    have hpair : ∀ p : Pair invoice po, exactPair T i ≠ some p := by
      intro p hp
      rw [exactPair_eq_some, hequal] at hp
      cases hp.1
    refine h.snoc (fun p => ?_) (hreport rfl rfl ?_)
    · exact (or_iff_left (hpair p)).symm
    · rw [exactIssue, if_pos hnone, issueCheck]
  · next d hd =>
    have hperm := exactCandidates_perm hdistinct hinv h hi hd
    have hsome : usableDescription T (invoice.lineItems.get i) ≠ none := by rw [hd]; simp
    split
    · next hnil =>
      rw [hnil] at hperm
      have hequal := List.nil_perm.1 hperm
      refine h.snoc (fun p => ?_) fun k code => ?_
      · refine (or_iff_left fun hp => ?_).symm
        rw [exactPair_eq_some, hequal] at hp
        cases hp.1
      · refine (or_iff_left fun hk => ?_).symm
        rw [exactIssue, if_neg hsome, hequal] at hk
        simp at hk
    · next j hj =>
      rw [hj] at hperm
      have hequal := List.perm_singleton.1 hperm.symm
      refine h.snoc (fun p => ?_) fun k code => ?_
      · rw [List.mem_append, List.mem_singleton, exactPair_eq_some, hequal]
        refine or_congr_right ⟨?_, ?_⟩
        · rintro rfl
          exact ⟨rfl, rfl⟩
        · rintro ⟨hsame, hp⟩
          rw [hp, List.singleton_inj.1 hsame]
      · refine (or_iff_left fun hk => ?_).symm
        rw [exactIssue, if_neg hsome, hequal] at hk
        simp at hk
    · next j k rest hmany =>
      have hlength : 2 ≤ (equalLines T po (invoice.lineItems.get i)).length := by
        rw [← hperm.length_eq, hmany]
        simp
      refine h.snoc (fun p => ?_) (hreport rfl rfl ?_)
      · refine (or_iff_left fun hp => ?_).symm
        rw [exactPair_eq_some] at hp
        rw [hp.1] at hlength
        simp at hlength
      · rw [exactIssue, if_neg hsome, if_pos hlength, issueCheck]

/-- Nothing the first pass does depends on the lines before. -/
theorem exactPass_free (hdistinct : DistinctDescriptions T invoice.lineItems) :
    ExactFree (T := T) (List.finRange invoice.lineItems.length) (exactPass T invoice po policy) := by
  suffices hfold : ∀ (todo done : List (Fin invoice.lineItems.length)) (s : ExactPass invoice po),
      (done ++ todo).Nodup → ExactInv done s → ExactFree (T := T) done s →
      ExactFree (T := T) (done ++ todo) (todo.foldl (exactStep T policy) s) by
    refine hfold (List.finRange _) [] _ (List.nodup_finRange _) exactInv_initial ⟨?_, ?_⟩
    · simp
    · simp
  intro todo
  induction todo with
  | nil =>
    intro done s _ _ h
    simpa using h
  | cons i todo ih =>
    intro done s hnd hinv h
    have hi : i ∉ done := by
      rw [List.nodup_append] at hnd
      exact fun hm => hnd.2.2 i hm i (by simp) rfl
    have hinv' : ExactInv (done ++ [i]) (exactStep T policy s i) := hinv.step hi
    simpa using ih (done ++ [i]) _ (by simpa using hnd) hinv' (h.step hdistinct hinv hi)

end

/-- The lines of the second invoice and of the second order are those of the first, at other places. -/
structure Reordering (invoice invoice' : Invoice) (po po' : PurchaseOrderRead) where
  onLines : Fin invoice.lineItems.length ≃ Fin invoice'.lineItems.length
  onOrder : Fin po.lines.length ≃ Fin po'.lines.length
  line : ∀ i, invoice'.lineItems.get (onLines i) = invoice.lineItems.get i
  orderLine : ∀ j, po'.lines.get (onOrder j) = po.lines.get j

namespace Reordering

variable {T : TextOps} {invoice invoice' : Invoice} {po po' : PurchaseOrderRead} {policy : Tolerances}
  (R : Reordering invoice invoice' po po')

/-- The same pair at its new places. -/
def pair (p : Pair invoice po) : Pair invoice' po' where
  invoiceIndex := R.onLines p.invoiceIndex
  poIndex := R.onOrder p.poIndex
  score := p.score
  isExact := p.isExact

theorem pair_injective : Function.Injective R.pair := by
  rintro ⟨i, j, s, e⟩ ⟨i', j', s', e'⟩ h
  simp only [pair, Pair.mk.injEq, EmbeddingLike.apply_eq_iff_eq] at h ⊢
  exact h

@[simp] theorem invoiceLine_pair (p : Pair invoice po) : (R.pair p).invoiceLine = p.invoiceLine := R.line _

@[simp] theorem poLine_pair (p : Pair invoice po) : (R.pair p).poLine = p.poLine := R.orderLine _

/-- Every position of the second invoice is the new place of one of the first. -/
theorem mem_map_onLines {is : List (Fin invoice.lineItems.length)} {i : Fin invoice.lineItems.length} :
    R.onLines i ∈ is.map R.onLines ↔ i ∈ is := List.mem_map_of_injective R.onLines.injective

theorem mem_map_onOrder {js : List (Fin po.lines.length)} {j : Fin po.lines.length} :
    R.onOrder j ∈ js.map R.onOrder ↔ j ∈ js := List.mem_map_of_injective R.onOrder.injective

theorem equalLines_perm (line : InvoiceLine) :
    (equalLines T po' line).Perm ((equalLines T po line).map R.onOrder) := by
  unfold equalLines
  cases usableDescription T line with
  | none => exact .nil
  | some d =>
    refine (List.perm_ext_iff_of_nodup ((List.nodup_finRange _).filter _)
      (((List.nodup_finRange _).filter _).map R.onOrder.injective)).2 fun j' => ?_
    obtain ⟨j, rfl⟩ := R.onOrder.surjective j'
    rw [R.mem_map_onOrder]
    simp only [List.mem_filter, List.mem_finRange, true_and, R.orderLine]

include R in
theorem exactIssue_eq (line : InvoiceLine) : exactIssue T po' line = exactIssue T po line := by
  have hlength := (R.equalLines_perm (T := T) line).length_eq
  rw [List.length_map] at hlength
  rw [exactIssue, exactIssue, hlength]

theorem exactPair_eq (i : Fin invoice.lineItems.length) :
    exactPair T (R.onLines i) = (exactPair T i).map R.pair := by
  ext p'
  rw [exactPair_eq_some, Option.map_eq_some_iff, R.line]
  constructor
  · rintro ⟨hequal, hp'⟩
    have hperm := R.equalLines_perm (T := T) (invoice.lineItems.get i)
    rw [hequal] at hperm
    obtain ⟨j, hj, hpo⟩ := List.map_eq_singleton_iff.1 (List.perm_singleton.1 hperm.symm)
    refine ⟨⟨i, j, 1, true⟩, exactPair_eq_some.2 ⟨hj, rfl⟩, ?_⟩
    rw [hp', pair, hpo]
  · rintro ⟨p, hp, rfl⟩
    obtain ⟨hequal, hp⟩ := exactPair_eq_some.1 hp
    have hperm := R.equalLines_perm (T := T) (invoice.lineItems.get i)
    rw [hequal] at hperm
    exact ⟨List.perm_singleton.1 hperm, by rw [hp]; rfl⟩

variable (hdistinct : DistinctDescriptions T invoice.lineItems)
  (hdistinct' : DistinctDescriptions T invoice'.lineItems)

include hdistinct hdistinct'

theorem selected_perm : (exactPass T invoice' po' policy).selected.Perm
    ((exactPass T invoice po policy).selected.map R.pair) := by
  have hnodup : (exactPass T invoice po policy).selected.Nodup := exactPass_inv.oneToOne.left.of_map
  have hnodup' : (exactPass T invoice' po' policy).selected.Nodup := exactPass_inv.oneToOne.left.of_map
  refine (List.perm_ext_iff_of_nodup hnodup' (hnodup.map R.pair_injective)).2 fun p' => ?_
  obtain ⟨i, hi⟩ := R.onLines.surjective p'.invoiceIndex
  rw [(exactPass_free hdistinct').selected, ← hi, R.exactPair_eq, Option.map_eq_some_iff, List.mem_map]
  simp only [List.mem_finRange, true_and, (exactPass_free hdistinct).selected]
  refine exists_congr fun p => and_congr_left ?_
  rintro rfl
  have hindex : i = p.invoiceIndex := R.onLines.injective hi
  rw [hindex]

theorem available_perm : (exactPass T invoice' po' policy).availablePo.Perm
    ((exactPass T invoice po policy).availablePo.map R.onOrder) := by
  refine (List.perm_ext_iff_of_nodup exactPass_inv.available_nodup
    (exactPass_inv.available_nodup.map R.onOrder.injective)).2 fun j' => ?_
  obtain ⟨j, rfl⟩ := R.onOrder.surjective j'
  have hmap : ((exactPass T invoice' po' policy).selected.map Pair.poIndex).Perm
      (((exactPass T invoice po policy).selected.map Pair.poIndex).map R.onOrder) := by
    rw [List.map_map]
    refine ((R.selected_perm hdistinct hdistinct').map Pair.poIndex).trans ?_
    rw [List.map_map]
    exact .refl _
  rw [exactPass_inv.available, hmap.mem_iff, R.mem_map_onOrder, R.mem_map_onOrder, exactPass_inv.available]

omit hdistinct' in
/-- A line is left over when the first pass neither pairs nor reports it. -/
theorem mem_unresolved {i : Fin invoice.lineItems.length} : i ∈ (exactPass T invoice po policy).unresolvedInvoice ↔
    (exactPair T i : Option (Pair invoice po)) = none ∧ exactIssue T po (invoice.lineItems.get i) = none := by
  have hfree : ExactFree (T := T) (List.finRange _) (exactPass T invoice po policy) := exactPass_free hdistinct
  have hpair : i ∉ (exactPass T invoice po policy).selected.map Pair.invoiceIndex ↔
      (exactPair T i : Option (Pair invoice po)) = none := by
    rw [Option.eq_none_iff_forall_ne_some, List.mem_map]
    constructor
    · intro hnot p hp
      obtain rfl := exactPair_index hp
      exact hnot ⟨p, (hfree.selected p).2 ⟨List.mem_finRange _, hp⟩, rfl⟩
    · rintro hnone ⟨p, hp, rfl⟩
      exact hnone p ((hfree.selected p).1 hp).2
  have hissue : (∀ c ∈ (exactPass T invoice po policy).issues, c.invoiceLineIndex ≠ some i.val) ↔
      exactIssue T po (invoice.lineItems.get i) = none := by
    rw [Option.eq_none_iff_forall_ne_some]
    constructor
    · intro hnot code hcode
      obtain ⟨c, hc, hindex, -⟩ := (hfree.issues i code).2 ⟨List.mem_finRange _, hcode⟩
      exact hnot c hc hindex
    · intro hnone c hc hindex
      exact hnone c.code ((hfree.issues i c.code).1 ⟨c, hc, hindex, rfl⟩).2
  rw [exactPass_inv.unresolved, hpair, hissue]

theorem unresolved_perm : (exactPass T invoice' po' policy).unresolvedInvoice.Perm
    ((exactPass T invoice po policy).unresolvedInvoice.map R.onLines) := by
  refine (List.perm_ext_iff_of_nodup exactPass_inv.unresolved_nodup
    (exactPass_inv.unresolved_nodup.map R.onLines.injective)).2 fun i' => ?_
  obtain ⟨i, rfl⟩ := R.onLines.surjective i'
  rw [mem_unresolved hdistinct', R.mem_map_onLines, mem_unresolved hdistinct, R.exactPair_eq, R.line, R.exactIssue_eq,
    Option.map_eq_none_iff]

include R in
theorem exactIssues_iff {code : ReasonCode} : (∃ c ∈ (exactPass T invoice' po' policy).issues, c.code = code) ↔
    ∃ c ∈ (exactPass T invoice po policy).issues, c.code = code := by
  have hcodes : ∀ {inv : Invoice} {order : PurchaseOrderRead}, DistinctDescriptions T inv.lineItems →
      ((∃ c ∈ (exactPass T inv order policy).issues, c.code = code) ↔
        ∃ i, exactIssue T order (inv.lineItems.get i) = some code) := by
    intro inv order hdis
    have hfree : ExactFree (T := T) (List.finRange _) (exactPass T inv order policy) := exactPass_free hdis
    constructor
    · rintro ⟨c, hc, hcode⟩
      obtain ⟨-, -, i, -, hindex, -⟩ := exactPass_inv.issue c hc
      exact ⟨i, ((hfree.issues i code).1 ⟨c, hc, hindex, hcode⟩).2⟩
    · rintro ⟨i, hi⟩
      obtain ⟨c, hc, -, hcode⟩ := (hfree.issues i code).2 ⟨List.mem_finRange _, hi⟩
      exact ⟨c, hc, hcode⟩
  rw [hcodes hdistinct', hcodes hdistinct, R.onLines.surjective.exists]
  simp only [R.line, R.exactIssue_eq]

end Reordering

section

variable {T : TextOps} {invoice : Invoice} {po : PurchaseOrderRead}

/-- No two of the pairs have the same score on the same purchase-order line. -/
def NoTies (ps : List (Pair invoice po)) : Prop :=
  ∀ p ∈ ps, ∀ q ∈ ps, p.score = q.score → p.poIndex = q.poIndex → p = q

theorem poIndex_of_sortKey (hkeys : (po.lines.map (poLineSortKey T)).Nodup) {p q : Pair invoice po}
    (h : poLineSortKey T p.poLine = poLineSortKey T q.poLine) : p.poIndex = q.poIndex := by
  have hinj := List.nodup_iff_injective_get.1 hkeys
  have hcast := @hinj ⟨p.poIndex, by simp⟩ ⟨q.poIndex, by simp⟩ (by simpa [Pair.poLine] using h)
  exact Fin.ext (by simpa using hcast)

/-- Without ties the ranking is the same for every order of the pairs. -/
theorem rank_eq_of_perm (hkeys : (po.lines.map (poLineSortKey T)).Nodup) {ps qs : List (Pair invoice po)}
    (hties : NoTies ps) (h : ps.Perm qs) : rank T ps = rank T qs := by
  have hps := List.perm_insertionSort (Pair.RankLe T) ps
  have hqs := List.perm_insertionSort (Pair.RankLe T) qs
  refine List.Perm.eq_of_pairwise ?_ (List.pairwise_insertionSort _ ps) (List.pairwise_insertionSort _ qs)
    (hps.trans (h.trans hqs.symm))
  intro p q hp hq hpq hqp
  rw [rankLe_iff] at hpq hqp
  have hkey := le_antisymm hpq hqp
  simp only [rankKey, EmbeddingLike.apply_eq_iff_eq, Prod.mk.injEq] at hkey
  exact hties p (hps.mem_iff.1 hp) q (h.mem_iff.2 (hqs.mem_iff.1 hq)) hkey.1 (poIndex_of_sortKey hkeys hkey.2.1)

end

namespace Reordering

variable {T : TextOps} {invoice invoice' : Invoice} {po po' : PurchaseOrderRead} {policy : Tolerances}
  (R : Reordering invoice invoice' po po')

/-- Pairs that correspond are ranked in the same order. -/
theorem rank_eq (hkeys : (po.lines.map (poLineSortKey T)).Nodup)
    (hkeys' : (po'.lines.map (poLineSortKey T)).Nodup) {ps : List (Pair invoice po)}
    {ps' : List (Pair invoice' po')} (hties : NoTies ps) (h : ps'.Perm (ps.map R.pair)) :
    rank T ps' = (rank T ps).map R.pair := by
  have hties' : NoTies (ps.map R.pair) := by
    intro p' hp' q' hq' hscore hpo
    obtain ⟨p, hp, rfl⟩ := List.mem_map.1 hp'
    obtain ⟨q, hq, rfl⟩ := List.mem_map.1 hq'
    rw [hties p hp q hq hscore (R.onOrder.injective hpo)]
  have hmap : (rank T ps).map R.pair = rank T (ps.map R.pair) := by
    refine List.map_insertionSort _ _ R.pair ps fun p hp q hq => ?_
    simp only [Pair.RankLe, poLine_pair]
    refine or_congr Iff.rfl (and_congr_right fun hscore => or_congr Iff.rfl (and_congr_right fun hkey => ?_))
    rw [hties p hp q hq hscore.symm (poIndex_of_sortKey hkeys hkey)]
    exact iff_of_true le_rfl le_rfl
  rw [hmap]
  exact (rank_eq_of_perm hkeys' hties' h.symm).symm

section

variable {available : List (Fin po.lines.length)} {available' : List (Fin po'.lines.length)}
  (hkeys : (po.lines.map (poLineSortKey T)).Nodup) (hkeys' : (po'.lines.map (poLineSortKey T)).Nodup)
  (h : available'.Perm (available.map R.onOrder)) (i : Fin invoice.lineItems.length)

include hkeys hkeys' h

theorem scored_eq : scored T available' (R.onLines i) = (scored T available i).map R.pair := by
  unfold scored
  simp only [R.line]
  refine R.rank_eq hkeys hkeys' ?_ ?_
  · intro p hp q hq _ hpo
    obtain ⟨j, -, rfl⟩ := List.mem_map.1 hp
    obtain ⟨k, -, rfl⟩ := List.mem_map.1 hq
    obtain rfl : j = k := hpo
    rfl
  · refine (h.map _).trans ?_
    rw [List.map_map, List.map_map]
    refine List.Perm.of_eq (List.map_congr_left fun j _ => ?_)
    simp only [Function.comp_apply, R.orderLine, pair]

theorem eligible_eq : eligible T policy available' (R.onLines i) = (eligible T policy available i).map R.pair := by
  rw [eligible, R.scored_eq hkeys hkeys' h, eligible, List.filter_map]
  rfl

/-- A line has the same candidates at their new places, or is reported for the same reason. -/
theorem lineCandidates_eq (policy : Tolerances) : (∃ es, lineCandidates T policy available i = .ok es ∧
      lineCandidates T policy available' (R.onLines i) = .ok (es.map R.pair)) ∨
    ∃ c c', lineCandidates T policy available i = .error c ∧
      lineCandidates T policy available' (R.onLines i) = .error c' ∧ c'.code = c.code := by
  have hscored := R.scored_eq hkeys hkeys' h i
  have heligible : eligible T policy available' (R.onLines i) = (eligible T policy available i).map R.pair :=
    R.eligible_eq hkeys hkeys' h i
  simp only [lineCandidates, hscored, heligible]
  cases scored T available i with
  | nil => exact .inr ⟨_, _, rfl, rfl, rfl⟩
  | cons best rest =>
    cases eligible T policy available i with
    | nil => exact .inr ⟨_, _, rfl, rfl, rfl⟩
    | cons p ps =>
      cases ps with
      | nil => exact .inl ⟨[p], rfl, rfl⟩
      | cons q qs =>
        by_cases hclose : T.floatSub p.score q.score < policy.ambiguityMargin
        · have hclose' : T.floatSub (R.pair p).score (R.pair q).score < policy.ambiguityMargin := hclose
          simp only [List.map_cons, if_pos hclose, if_pos hclose']
          exact .inr ⟨_, _, rfl, rfl, rfl⟩
        · have hclose' : ¬ T.floatSub (R.pair p).score (R.pair q).score < policy.ambiguityMargin := hclose
          simp only [List.map_cons, if_neg hclose, if_neg hclose']
          exact .inl ⟨p :: q :: qs, rfl, rfl⟩

theorem candidateEdges_eq :
    candidateEdges T policy available' (R.onLines i) = (candidateEdges T policy available i).map R.pair := by
  unfold candidateEdges
  rcases R.lineCandidates_eq hkeys hkeys' h i policy with ⟨es, hes, hes'⟩ | ⟨c, c', hc, hc', -⟩
  · rw [hes, hes']
  · rw [hc, hc']
    rfl

theorem candidateIssue_code :
    (candidateIssue T policy available' (R.onLines i)).map (·.code) =
      (candidateIssue T policy available i).map (·.code) := by
  unfold candidateIssue
  rcases R.lineCandidates_eq hkeys hkeys' h i policy with ⟨es, hes, hes'⟩ | ⟨c, c', hc, hc', hcode⟩
  · rw [hes, hes']
  · rw [hc, hc']
    exact congrArg some hcode

end

theorem holds_of_unresolved (hdistinct : DistinctDescriptions T invoice.lineItems)
    {i : Fin invoice.lineItems.length} (hi : i ∈ (exactPass T invoice po policy).unresolvedInvoice) :
    (invoice.lineItems.get i).description.Holds ((invoice.lineItems.get i).description.value.getD "") := by
  have hissue := ((mem_unresolved hdistinct).1 hi).2
  cases hd : usableDescription T (invoice.lineItems.get i) with
  | none =>
    rw [exactIssue, if_pos hd] at hissue
    cases hissue
  | some d =>
    have hholds := holds_of_usableDescription hd
    rw [hholds.2, Option.getD_some]
    exact hholds

theorem noTies_edges (hdistinct : DistinctDescriptions T invoice.lineItems)
    (hscores : DistinctScores T invoice.lineItems po.lines) :
    NoTies ((exactPass T invoice po policy).unresolvedInvoice.flatMap
      (candidateEdges T policy (exactPass T invoice po policy).availablePo)) := by
  intro p hp q hq hscore hpo
  obtain ⟨i, hi, hp⟩ := List.mem_flatMap.1 hp
  obtain ⟨k, hk, hq⟩ := List.mem_flatMap.1 hq
  have hp := score_of_mem_candidateEdges hp
  have hq := score_of_mem_candidateEdges hq
  have hline : p.poLine = q.poLine := by rw [Pair.poLine, Pair.poLine, hpo]
  have hsame : T.similarity ((invoice.lineItems.get i).description.value.getD "") p.poLine.description =
      T.similarity ((invoice.lineItems.get k).description.value.getD "") p.poLine.description := by
    rw [hp, hq] at hscore
    rw [← hline] at hscore
    exact hscore
  have hik : i = k := hscores.eq (List.get_mem _ _) (holds_of_unresolved hdistinct hi)
    (holds_of_unresolved hdistinct hk) hsame
  rw [hp, hq, hik, hpo, hline]

section

variable (hdistinct : DistinctDescriptions T invoice.lineItems)
  (hdistinct' : DistinctDescriptions T invoice'.lineItems) (hscores : DistinctScores T invoice.lineItems po.lines)
  (hkeys : (po.lines.map (poLineSortKey T)).Nodup) (hkeys' : (po'.lines.map (poLineSortKey T)).Nodup)

include hdistinct hdistinct' hkeys hkeys'

include hscores in
theorem rankedCandidates_eq :
    rankedCandidates T invoice' po' policy = (rankedCandidates T invoice po policy).map R.pair := by
  refine R.rank_eq hkeys hkeys' (noTies_edges hdistinct hscores) ?_
  refine ((R.unresolved_perm hdistinct hdistinct').flatMap_right _).trans ?_
  rw [List.flatMap_map, List.map_flatMap]
  refine List.Perm.of_eq (List.flatMap_congr fun i _ => ?_)
  exact R.candidateEdges_eq hkeys hkeys' (R.available_perm hdistinct hdistinct') i

include hscores in
theorem selectedPairs_perm :
    (selectedPairs T invoice' po' policy).Perm ((selectedPairs T invoice po policy).map R.pair) := by
  rw [selectedPairs, R.rankedCandidates_eq hdistinct hdistinct' hscores hkeys hkeys']
  have hleft : ∀ p, (R.pair p).invoiceIndex = R.onLines p.invoiceIndex := fun _ => rfl
  have hright : ∀ p, (R.pair p).poIndex = R.onOrder p.poIndex := fun _ => rfl
  exact greedy_map_perm R.onLines.injective R.onOrder.injective hleft hright
    (R.selected_perm hdistinct hdistinct') _

include R in
theorem lineIssues_iff {code : ReasonCode} : (∃ c ∈ lineIssues T invoice' po' policy, c.code = code) ↔
    ∃ c ∈ lineIssues T invoice po policy, c.code = code := by
  have hcandidate : ∀ i, (candidateIssue T policy (exactPass T invoice' po' policy).availablePo (R.onLines i)).map
        (·.code) = (candidateIssue T policy (exactPass T invoice po policy).availablePo i).map (·.code) :=
    R.candidateIssue_code hkeys hkeys' (R.available_perm hdistinct hdistinct')
  have hsplit : ∀ {inv : Invoice} {order : PurchaseOrderRead},
      (∃ c ∈ lineIssues T inv order policy, c.code = code) ↔
        (∃ c ∈ (exactPass T inv order policy).issues, c.code = code) ∨
          ∃ i ∈ (exactPass T inv order policy).unresolvedInvoice,
            (candidateIssue T policy (exactPass T inv order policy).availablePo i).map (·.code) = some code := by
    intro inv order
    simp only [lineIssues, List.mem_append, or_and_right, exists_or, List.mem_filterMap, Option.map_eq_some_iff]
    refine or_congr_right ⟨?_, ?_⟩
    · rintro ⟨c, ⟨i, hi, hc⟩, hcode⟩
      exact ⟨i, hi, c, hc, hcode⟩
    · rintro ⟨i, hi, c, hc, hcode⟩
      exact ⟨c, ⟨i, hi, hc⟩, hcode⟩
  rw [hsplit, hsplit, R.exactIssues_iff hdistinct hdistinct', R.onLines.surjective.exists]
  simp only [(R.unresolved_perm hdistinct hdistinct').mem_iff, R.mem_map_onLines, hcandidate]

end

end Reordering

section

variable {T : TextOps} {policy : Tolerances}

/-- Some check failed with this code. -/
def FailedWith (checks : List ValidationCheck) (code : ReasonCode) : Prop :=
  ∃ c ∈ checks, c.status = .failed ∧ c.code = code

theorem failedWith_append {as bs : List ValidationCheck} {code : ReasonCode} :
    FailedWith (as ++ bs) code ↔ FailedWith as code ∨ FailedWith bs code := by
  simp [FailedWith, or_and_right, exists_or]

theorem failedWith_flatMap {α : Type} {xs : List α} {f : α → List ValidationCheck} {code : ReasonCode} :
    FailedWith (xs.flatMap f) code ↔ ∃ x ∈ xs, FailedWith (f x) code := by
  simp only [FailedWith, List.mem_flatMap]
  constructor
  · rintro ⟨c, ⟨x, hx, hc⟩, h⟩
    exact ⟨x, hx, c, hc, h⟩
  · rintro ⟨x, hx, c, hc, h⟩
    exact ⟨c, ⟨x, hx, hc⟩, h⟩

/-- What the decision and the reason codes read of the checks. -/
def outcomes (checks : List ValidationCheck) : List (CheckStatus × ReasonCode) := checks.map fun c => (c.status, c.code)

theorem failedWith_of_outcomes {as bs : List ValidationCheck} (h : outcomes as = outcomes bs) (code : ReasonCode) :
    FailedWith as code ↔ FailedWith bs code := by
  have hmem : ∀ cs, FailedWith cs code ↔ (CheckStatus.failed, code) ∈ outcomes cs := by
    intro cs
    simp [FailedWith, outcomes]
  rw [hmem, hmem, h]

theorem outcomes_lineChecks [DecimalContext] (line : InvoiceLine) (i k : ℕ) :
    outcomes (lineChecks policy i line) = outcomes (lineChecks policy k line) := by
  have hnegative : ∀ (s l : String) (v : Option Decimal) (ev : List EvidenceSpan),
      outcomes (negativeCheck s l v (some i) ev) = outcomes (negativeCheck s l v (some k) ev) := by
    intro s l v ev
    cases v with
    | none => rfl
    | some d =>
      simp only [negativeCheck]
      split_ifs <;> rfl
  have harith : outcomes (arithmeticCheck policy i line) = outcomes (arithmeticCheck policy k line) := by
    unfold arithmeticCheck
    split <;> rfl
  unfold outcomes at hnegative harith ⊢
  simp only [lineChecks, List.map_append, hnegative, harith]
  rfl

theorem failedWith_lines [DecimalContext] {lines : List InvoiceLine} {code : ReasonCode} :
    FailedWith (lines.zipIdx.flatMap fun li => lineChecks policy li.2 li.1) code ↔
      ∃ line ∈ lines, FailedWith (lineChecks policy 0 line) code := by
  rw [failedWith_flatMap]
  constructor
  · rintro ⟨⟨line, i⟩, hmem, hfailed⟩
    refine ⟨line, List.mem_of_getElem? (List.mem_zipIdx_iff_getElem?.1 hmem), ?_⟩
    exact (failedWith_of_outcomes (outcomes_lineChecks line i 0) code).1 hfailed
  · rintro ⟨line, hmem, hfailed⟩
    obtain ⟨i, hi, rfl⟩ := List.mem_iff_getElem.1 hmem
    refine ⟨(lines[i], i), List.mem_zipIdx_iff_getElem?.2 (List.getElem?_eq_getElem hi), ?_⟩
    exact (failedWith_of_outcomes (outcomes_lineChecks _ i 0) code).2 hfailed

variable {invoice : Invoice} {po : PurchaseOrderRead} {lines : List InvoiceLine} {orderLines : List PurchaseOrderLine}

theorem usableLineTotals_perm (h : lines.Perm invoice.lineItems) :
    (usableLineTotals { invoice with lineItems := lines }).Perm (usableLineTotals invoice) :=
  h.filterMap _

theorem usableLineTotals_eq_nil (h : lines.Perm invoice.lineItems) :
    usableLineTotals { invoice with lineItems := lines } = [] ↔ usableLineTotals invoice = [] := by
  rw [← List.length_eq_zero_iff, (usableLineTotals_perm h).length_eq, List.length_eq_zero_iff]

theorem outcomes_usableLineCheck (h : lines.Perm invoice.lineItems) :
    outcomes [usableLineCheck { invoice with lineItems := lines }] = outcomes [usableLineCheck invoice] := by
  simp only [outcomes, usableLineCheck, check, List.map_cons, ne_eq, usableLineTotals_eq_nil h]

/-- The sum of the usable line totals, in the order of the lines. -/
def usableTotal [DecimalContext] (invoice : Invoice) : ℚ := roundedSum ((usableLineTotals invoice).map Decimal.toRat)

/-- Without a sum that is rounded the order does not matter. -/
theorem usableTotal_eq_of_scaled [DecimalContext] (h : lines.Perm invoice.lineItems) {y : ℚ} {n k : ℤ}
    (htotals : ∀ d ∈ usableLineTotals invoice, 0 ≤ d.toRat ∧ Scaled n d.toRat) (hy : Scaled k y) (hk : k ≤ 10 ^ 28)
    (hle : ((usableLineTotals invoice).map Decimal.toRat).sum ≤ y) :
    usableTotal { invoice with lineItems := lines } = usableTotal invoice := by
  have hperm := (usableLineTotals_perm h).map Decimal.toRat
  have hmem : ∀ x ∈ (usableLineTotals invoice).map Decimal.toRat, 0 ≤ x ∧ Scaled n x :=
    List.forall_mem_map.2 htotals
  rw [usableTotal, usableTotal, roundedSum_eq_sum hmem hy hk (.inr hle),
    roundedSum_eq_sum (fun x hx => hmem x (hperm.mem_iff.1 hx)) hy hk (.inr (hperm.sum_eq ▸ hle)), hperm.sum_eq]

/-- The check of the subtotal has one code when there is a subtotal, and reads only the sum. -/
theorem failedWith_subtotalChecks [DecimalContext] (h : lines.Perm invoice.lineItems) {code : ReasonCode}
    (hsum : code = .invoiceSubtotalMismatch → usableTotal { invoice with lineItems := lines } = usableTotal invoice) :
    FailedWith (subtotalChecks policy { invoice with lineItems := lines }) code ↔
      FailedWith (subtotalChecks policy invoice) code := by
  unfold subtotalChecks
  cases invoice.subtotal.extractedValue with
  | none => rfl
  | some subtotal =>
    by_cases hnil : usableLineTotals invoice = []
    · have hnil' := (usableLineTotals_eq_nil h).2 hnil
      simp only [if_pos hnil, if_pos hnil']
    · have hnil' := mt (usableLineTotals_eq_nil h).1 hnil
      simp only [if_neg hnil, if_neg hnil', FailedWith, List.mem_singleton, exists_eq_left, status_check, code_check]
      refine and_congr_left fun hcode => ?_
      have hequal := hsum hcode.symm
      unfold usableTotal at hequal
      simp only [Decimal.le_iff, DecimalContext.toRat_absDiff, DecimalContext.toRat_sum, hequal]

/-- The checks before the assignment fail with the same codes. -/
theorem failedWith_headerChecks [DecimalContext] (hlines : lines.Perm invoice.lineItems) (horder : orderLines.Perm po.lines)
    {code : ReasonCode}
    (hsum : code = .invoiceSubtotalMismatch → usableTotal { invoice with lineItems := lines } = usableTotal invoice) :
    FailedWith (headerChecks { invoice with lineItems := lines } { po with lines := orderLines } policy) code ↔
      FailedWith (headerChecks invoice po policy) code := by
  have husable := failedWith_of_outcomes (outcomes_usableLineCheck hlines) code
  have hsubtotal : FailedWith (subtotalChecks policy { invoice with lineItems := lines }) code ↔
      FailedWith (subtotalChecks policy invoice) code := failedWith_subtotalChecks hlines hsum
  have hitems : (∃ line ∈ lines, FailedWith (lineChecks policy 0 line) code) ↔
      ∃ line ∈ invoice.lineItems, FailedWith (lineChecks policy 0 line) code := by
    simp only [hlines.mem_iff]
  have hamounts : (∃ line ∈ orderLines, FailedWith (poLineAmountChecks policy line) code) ↔
      ∃ line ∈ po.lines, FailedWith (poLineAmountChecks policy line) code := by
    simp only [horder.mem_iff]
  simp only [headerChecks, validateInvoiceFinancials, failedWith_append, failedWith_lines, husable, hsubtotal, hitems]
  simp only [failedWith_flatMap, hamounts]
  exact Iff.rfl

theorem mem_reasonCodes {checks : List ValidationCheck} {assignments : List LineAssignment} {code : ReasonCode} :
    code ∈ (MatchResult.ofChecks invoice po checks assignments).reasonCodes ↔
      FailedWith (checks ++ assignments.flatMap (·.checks)) code := by
  simp only [MatchResult.ofChecks, List.mem_eraseDups, List.mem_map, failedChecks, List.mem_filter, FailedWith,
    decide_eq_true_eq, and_assoc]

/-- An invoice is matched when there is no reason to review it. -/
theorem decision_ofChecks {checks : List ValidationCheck} {assignments : List LineAssignment} :
    (MatchResult.ofChecks invoice po checks assignments).decision = .matched ↔
      ∀ code, code ∉ (MatchResult.ofChecks invoice po checks assignments).reasonCodes := by
  rw [MatchResult.ofChecks_decision, ← clean_flatMap, ← clean_append]
  simp only [mem_reasonCodes, FailedWith, Clean, ← CheckStatus.ne_failed]
  constructor
  · rintro h code ⟨c, hc, hfailed, -⟩
    exact h c hc hfailed
  · intro h c hc hfailed
    exact h c.code ⟨c, hc, hfailed, rfl⟩

end

namespace Reordering

variable {T : TextOps} {invoice invoice' : Invoice} {po po' : PurchaseOrderRead} {policy : Tolerances}
  (R : Reordering invoice invoice' po po')

theorem outcomes_assignment [DecimalContext] (p : Pair invoice po) :
    outcomes (assignment T policy (R.pair p)).checks = outcomes (assignment T policy p).checks := by
  have hquantity : outcomes (quantityChecks policy (R.pair p)) = outcomes (quantityChecks policy p) := by
    simp only [quantityChecks, invoiceLine_pair, poLine_pair]
    split <;> rfl
  have hprice : outcomes (unitPriceChecks policy (R.pair p)) = outcomes (unitPriceChecks policy p) := by
    simp only [unitPriceChecks, invoiceLine_pair, poLine_pair]
    split <;> rfl
  have hamount : outcomes (lineAmountChecks policy (R.pair p)) = outcomes (lineAmountChecks policy p) := by
    simp only [lineAmountChecks, invoiceLine_pair, poLine_pair]
    split <;> rfl
  unfold outcomes at hquantity hprice hamount ⊢
  simp only [assignment, List.map_append, hquantity, hprice, hamount]
  rfl

theorem failedWith_assignments [DecimalContext] {ps : List (Pair invoice po)} {ps' : List (Pair invoice' po')}
    (h : ps'.Perm (ps.map R.pair)) (code : ReasonCode) :
    FailedWith ((ps'.map (assignment T policy)).flatMap (·.checks)) code ↔
      FailedWith ((ps.map (assignment T policy)).flatMap (·.checks)) code := by
  simp only [List.flatMap_map, failedWith_flatMap, h.mem_iff, List.mem_map, exists_exists_and_eq_and]
  exact exists_congr fun p => and_congr_right fun _ => failedWith_of_outcomes (R.outcomes_assignment p) code

theorem failedWith_poUnmatchedChecks {ps : List (Pair invoice po)} {ps' : List (Pair invoice' po')}
    (h : ps'.Perm (ps.map R.pair)) (code : ReasonCode) :
    FailedWith (poUnmatchedChecks ps') code ↔ FailedWith (poUnmatchedChecks ps) code := by
  have hmem : ∀ {inv : Invoice} {order : PurchaseOrderRead} (qs : List (Pair inv order)),
      FailedWith (poUnmatchedChecks qs) code ↔
        ∃ j, j ∉ qs.map Pair.poIndex ∧ ReasonCode.poLineUnmatched = code := by
    intro inv order qs
    simp only [FailedWith, poUnmatchedChecks, List.mem_map, List.mem_filter, List.mem_finRange, true_and]
    constructor
    · rintro ⟨c, ⟨j, hj, rfl⟩, -, hcode⟩
      exact ⟨j, by simpa using hj, hcode⟩
    · rintro ⟨j, hj, hcode⟩
      exact ⟨_, ⟨j, by simpa using hj, rfl⟩, rfl, hcode⟩
  have hperm : (ps'.map Pair.poIndex).Perm ((ps.map Pair.poIndex).map R.onOrder) := by
    refine (h.map Pair.poIndex).trans ?_
    rw [List.map_map, List.map_map]
    exact .refl _
  rw [hmem, hmem, R.onOrder.surjective.exists]
  simp only [hperm.mem_iff, R.mem_map_onOrder]

end Reordering

theorem failedWith_lineIssues {T : TextOps} {invoice : Invoice} {po : PurchaseOrderRead} {policy : Tolerances}
    {code : ReasonCode} : FailedWith (lineIssues T invoice po policy) code ↔
      ∃ c ∈ lineIssues T invoice po policy, c.code = code :=
  exists_congr fun _ => and_congr_right fun hc => and_iff_right (mem_lineIssues hc).1

theorem mem_reasonCodes_matchInvoice [DecimalContext] {T : TextOps} {invoice : Invoice} {po : PurchaseOrderRead}
    {policy : MatchingPolicy} {code : ReasonCode} : code ∈ (matchInvoice T invoice po policy).reasonCodes ↔
      ((FailedWith (headerChecks invoice po policy.toTolerances) code ∨
          ∃ c ∈ lineIssues T invoice po policy.toTolerances, c.code = code) ∨
        FailedWith (poUnmatchedChecks (selectedPairs T invoice po policy.toTolerances)) code) ∨
      FailedWith (((assignedPairs T invoice po policy.toTolerances).map
        (assignment T policy.toTolerances)).flatMap (·.checks)) code := by
  simp only [matchInvoice, mem_reasonCodes]
  rw [candidatePairs_checks exists_headerCheck_of_line, failedWith_append, failedWith_append, failedWith_append,
    failedWith_lineIssues]
  rfl

/-- The lines that are put together: the invoice line at the index of the assignment, and the order line by its id
and its number. -/
def assignedLines (invoice : Invoice) (result : MatchResult) : List (Option InvoiceLine × Uuid × String) :=
  result.lineAssignments.map fun a => (invoice.lineItems[a.invoiceLineIndex]?, a.poLineId, a.poLineNumber)

theorem assignedLines_matchInvoice [DecimalContext] {T : TextOps} {invoice : Invoice} {po : PurchaseOrderRead}
    {policy : MatchingPolicy} : assignedLines invoice (matchInvoice T invoice po policy) =
      (assignedPairs T invoice po policy.toTolerances).map fun p =>
        (some p.invoiceLine, p.poLine.id, p.poLine.lineNumber) := by
  rw [assignedLines, lineAssignments_matchInvoice, List.map_map]
  refine List.map_congr_left fun p _ => ?_
  simp [assignment, Pair.invoiceLine]

/-- Without ties the lines that are put together are the same for all permutations of the invoice lines and of the
purchase-order lines, and so are the reason codes, except for that of the subtotal. When the sum of the line totals is
the same in both orders, the decision and all reason codes are. -/
theorem match_order_independent [DecimalContext] (T : TextOps) (policy : MatchingPolicy) (invoice : Invoice)
    (po : PurchaseOrderRead) (hdistinct : DistinctDescriptions T invoice.lineItems)
    (hkeys : (po.lines.map (poLineSortKey T)).Nodup) (hscores : DistinctScores T invoice.lineItems po.lines)
    (lines : List InvoiceLine) (orderLines : List PurchaseOrderLine) (hlines : lines.Perm invoice.lineItems)
    (horder : orderLines.Perm po.lines) :
    (assignedLines { invoice with lineItems := lines }
        (matchInvoice T { invoice with lineItems := lines } { po with lines := orderLines } policy)).Perm
      (assignedLines invoice (matchInvoice T invoice po policy)) ∧
    (∀ code, code ≠ .invoiceSubtotalMismatch →
      (code ∈ (matchInvoice T { invoice with lineItems := lines } { po with lines := orderLines } policy).reasonCodes ↔
        code ∈ (matchInvoice T invoice po policy).reasonCodes)) ∧
    (usableTotal { invoice with lineItems := lines } = usableTotal invoice →
      (matchInvoice T { invoice with lineItems := lines } { po with lines := orderLines } policy).decision =
        (matchInvoice T invoice po policy).decision ∧
      ∀ code,
        code ∈ (matchInvoice T { invoice with lineItems := lines } { po with lines := orderLines } policy).reasonCodes ↔
          code ∈ (matchInvoice T invoice po policy).reasonCodes) := by
  obtain ⟨onLines, hline⟩ := Lists.exists_equiv_of_perm hlines.symm
  obtain ⟨onOrder, horderLine⟩ := Lists.exists_equiv_of_perm horder.symm
  let R : Reordering invoice { invoice with lineItems := lines } po { po with lines := orderLines } :=
    ⟨onLines, onOrder, hline, horderLine⟩
  have hdistinct' : DistinctDescriptions T lines := by
    refine (hlines.pairwise_iff ?_).2 hdistinct
    intro l m hlm d e hd he hsame
    exact hlm e d he hd hsame.symm
  have hkeys' : (orderLines.map (poLineSortKey T)).Nodup := (horder.map _).nodup_iff.2 hkeys
  have hselected : (selectedPairs T { invoice with lineItems := lines } { po with lines := orderLines }
      policy.toTolerances).Perm ((selectedPairs T invoice po policy.toTolerances).map R.pair) :=
    R.selectedPairs_perm hdistinct hdistinct' hscores hkeys hkeys'
  have hassigned : (assignedPairs T { invoice with lineItems := lines } { po with lines := orderLines }
      policy.toTolerances).Perm ((assignedPairs T invoice po policy.toTolerances).map R.pair) :=
    perm_assignedPairs.trans (hselected.trans (perm_assignedPairs.symm.map R.pair))
  have hcodes : ∀ code, (code = .invoiceSubtotalMismatch →
        usableTotal { invoice with lineItems := lines } = usableTotal invoice) →
      (code ∈ (matchInvoice T { invoice with lineItems := lines } { po with lines := orderLines } policy).reasonCodes ↔
        code ∈ (matchInvoice T invoice po policy).reasonCodes) := by
    intro code hsum
    rw [mem_reasonCodes_matchInvoice, mem_reasonCodes_matchInvoice, failedWith_headerChecks hlines horder hsum,
      R.lineIssues_iff hdistinct hdistinct' hkeys hkeys', R.failedWith_poUnmatchedChecks hselected,
      R.failedWith_assignments hassigned]
  refine ⟨?_, fun code hcode => hcodes code fun heq => absurd heq hcode, fun hsum => ⟨?_, fun code => hcodes code fun _ => hsum⟩⟩
  · rw [assignedLines_matchInvoice, assignedLines_matchInvoice]
    refine (hassigned.map _).trans (.of_eq ?_)
    rw [List.map_map]
    refine List.map_congr_left fun p _ => ?_
    simp
  · have hmatched : (matchInvoice T { invoice with lineItems := lines } { po with lines := orderLines } policy).decision =
        .matched ↔ (matchInvoice T invoice po policy).decision = .matched := by
      rw [matchInvoice, matchInvoice, decision_ofChecks, decision_ofChecks]
      exact forall_congr' fun code => not_congr (hcodes code fun _ => hsum)
    revert hmatched
    cases (matchInvoice T { invoice with lineItems := lines } { po with lines := orderLines } policy).decision with
    | matched => exact fun h => (h.1 rfl).symm
    | needsReview =>
      cases (matchInvoice T invoice po policy).decision with
      | matched => exact fun h => h.2 rfl
      | needsReview => exact fun _ => rfl

/-- Texts of which one begins with the other are alike, and all others have nothing in common. -/
def leadingTextOps : TextOps :=
  TextOps.ofRatio asciiTextOps.toUnicode
    (fun l r => if l.toList.isPrefixOf r.toList || r.toList.isPrefixOf l.toList then 100 else 0)
    (fun l r => by split_ifs <;> norm_num) (fun a b => a - b) (fun _ => "") (fun _ => "")

/-- A tap and a rod are billed. -/
def rodInvoice : Invoice := { filterInvoice with lineItems := [filterLine "Tap", filterLine "Rod"] }

/-- The tap is ordered under a longer description. -/
def rodOrder : PurchaseOrderRead :=
  { filterOrder with
    lines :=
      [{ id := Uuid.ofNat 2
         purchaseOrderId := Uuid.ofNat 1
         lineNumber := "1"
         description := "Tap Steel"
         orderedQuantity := ⟨false, 1, 0⟩
         unitPrice := ⟨false, 10, 0⟩
         lineTotal := none },
       { id := Uuid.ofNat 3
         purchaseOrderId := Uuid.ofNat 1
         lineNumber := "2"
         description := "Rod"
         orderedQuantity := ⟨false, 1, 0⟩
         unitPrice := ⟨false, 10, 0⟩
         lineTotal := none }] }

/-- The invoice is matched, and so it is with both lists reversed. -/
theorem match_order_independent_rod :
    (matchInvoice leadingTextOps rodInvoice rodOrder .default).decision = .matched ∧
    (matchInvoice leadingTextOps { rodInvoice with lineItems := rodInvoice.lineItems.reverse }
      { rodOrder with lines := rodOrder.lines.reverse } .default).decision = .matched := by
  have hmatched : (matchInvoice leadingTextOps rodInvoice rodOrder .default).decision = .matched := by
    decide +kernel
  have hdistinct : DistinctDescriptions leadingTextOps rodInvoice.lineItems := by
    refine List.pairwise_pair.2 ?_
    rintro d e ⟨-, hd⟩ ⟨-, he⟩
    obtain rfl := Option.some.inj hd
    obtain rfl := Option.some.inj he
    decide +kernel
  have hscores : DistinctScores leadingTextOps rodInvoice.lineItems rodOrder.lines := by
    refine List.pairwise_pair.2 ?_
    rintro d e ⟨-, hd⟩ ⟨-, he⟩
    obtain rfl := Option.some.inj hd
    obtain rfl := Option.some.inj he
    decide +kernel
  have hkeys : (rodOrder.lines.map (poLineSortKey leadingTextOps)).Nodup := by decide +kernel
  have hsum : usableTotal { rodInvoice with lineItems := rodInvoice.lineItems.reverse } = usableTotal rodInvoice := by
    have hscaled : ∀ m : ℤ, Scaled (|m| * 10 ^ 8 + 1) (m : ℚ) := by
      intro m p hp
      obtain rfl : (28 : ℕ) = p := Option.some.inj hp
      refine ⟨le_rfl, m * 10 ^ 8, ?_, by push_cast; ring⟩
      rw [abs_mul, abs_of_pos (show (0 : ℤ) < 10 ^ 8 by norm_num)]
      omega
    refine usableTotal_eq_of_scaled (n := |10| * 10 ^ 8 + 1) (List.reverse_perm _) (fun d hd => ?_) (hscaled 20)
      (by norm_num) (by decide +kernel)
    obtain rfl : d = ⟨false, 10, 0⟩ := by
      have hall : ∀ d ∈ usableLineTotals rodInvoice, d = ⟨false, 10, 0⟩ := by decide +kernel
      exact hall d hd
    exact ⟨by decide +kernel, by simpa [Decimal.toRat, Decimal.int] using hscaled 10⟩
  obtain ⟨-, -, hsame⟩ := match_order_independent leadingTextOps .default rodInvoice rodOrder hdistinct hkeys hscores
    rodInvoice.lineItems.reverse rodOrder.lines.reverse (List.reverse_perm _) (List.reverse_perm _)
  exact ⟨hmatched, (hsame hsum).1.trans hmatched⟩

/-- A description scores by its length alone, whatever it is compared with. -/
def lengthTextOps : TextOps :=
  TextOps.ofRatio asciiTextOps.toUnicode (fun l _ => if l.length ≤ 100 then l.length else 100)
    (fun l r => by
      split_ifs with h
      · exact ⟨by positivity, by exact_mod_cast h⟩
      · norm_num)
    (fun a b => a - b) (fun _ => "") (fun _ => "")

/-- One line of 28 digits, and two that are lost beside it one by one but not together. -/
def longSumInvoice : Invoice :=
  { filterInvoice with
    subtotal := printed ⟨false, 1, 27⟩ "1E+27"
    total := printed ⟨false, 1, 27⟩ "1E+27"
    lineItems :=
      [{ filterLine "Tap" with
         quantity := printed ⟨false, 1, 14⟩ "1E+14"
         unitPrice := printed ⟨false, 1, 13⟩ "1E+13"
         lineTotal := printed ⟨false, 1, 27⟩ "1E+27" },
       { filterLine "Bolt" with
         unitPrice := printed ⟨false, 40, -2⟩ "0.40"
         lineTotal := printed ⟨false, 40, -2⟩ "0.40" },
       { filterLine "Screw" with
         unitPrice := printed ⟨false, 40, -2⟩ "0.40"
         lineTotal := printed ⟨false, 40, -2⟩ "0.40" }] }

def longSumLine (number : ℕ) (description : String) (quantity unitPrice : Decimal) : PurchaseOrderLine where
  id := Uuid.ofNat (1 + number)
  purchaseOrderId := Uuid.ofNat 1
  lineNumber := toString number
  description := description
  orderedQuantity := quantity
  unitPrice := unitPrice
  lineTotal := none

def longSumOrder : PurchaseOrderRead :=
  { filterOrder with
    lines :=
      [longSumLine 1 "Tap" ⟨false, 1, 14⟩ ⟨false, 1, 13⟩, longSumLine 2 "Bolt" ⟨false, 1, 0⟩ ⟨false, 40, -2⟩,
       longSumLine 3 "Screw" ⟨false, 1, 0⟩ ⟨false, 40, -2⟩] }

/-- Nothing ties, and the invoice is matched, but not with its lines reversed: the sum of its line totals is then
another number. -/
theorem long_sum_order_dependent : DistinctDescriptions lengthTextOps longSumInvoice.lineItems ∧
    (longSumOrder.lines.map (poLineSortKey lengthTextOps)).Nodup ∧
    DistinctScores lengthTextOps longSumInvoice.lineItems longSumOrder.lines ∧
    (matchInvoice lengthTextOps longSumInvoice longSumOrder .default).decision = .matched ∧
    (matchInvoice lengthTextOps { longSumInvoice with lineItems := longSumInvoice.lineItems.reverse } longSumOrder
      .default).decision = .needsReview := by
  have hvalue : ∀ {f : String} {d : String} {ev : String}, (printed f ev).Holds d → d = f := fun h =>
    (Option.some.inj h.2).symm
  refine ⟨?_, by decide +kernel, ?_, by decide +kernel, by decide +kernel⟩
  all_goals
    simp only [DistinctDescriptions, DistinctScores, longSumInvoice, List.pairwise_cons, List.mem_cons, List.not_mem_nil,
      or_false, forall_eq_or_imp, forall_eq, filterLine]
  · refine ⟨⟨?_, ?_⟩, ⟨?_, by simp⟩⟩
    all_goals
      intro d e hd he
      rw [hvalue hd, hvalue he]
      decide +kernel
  · refine ⟨⟨?_, ?_⟩, ⟨?_, by simp⟩⟩
    all_goals
      intro d e hd he
      rw [hvalue hd, hvalue he]
      decide +kernel

end InvoiceOps
