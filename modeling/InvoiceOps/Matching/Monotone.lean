import InvoiceOps.Matching.Agreement

/-! Matching under a wider policy. Which lines are paired depends on the description parameters only, and every
comparison of both engines has its tolerance on the side where a larger one accepts more. What is matched under one
policy is therefore matched under every policy with larger tolerances, with the same pairs and the same drafts. -/

namespace InvoiceOps

open Calendar

/-- The second policy has the same description parameters and no smaller tolerance. -/
structure Tolerances.Widens (s t : Tolerances) : Prop where
  amount : s.amountAbsolute ≤ t.amountAbsolute
  quantity : s.quantityAbsolute ≤ t.quantityAbsolute
  unitPrice : s.unitPriceRelative ≤ t.unitPriceRelative
  threshold : s.descriptionSimilarityThreshold = t.descriptionSimilarityThreshold
  margin : s.ambiguityMargin = t.ambiguityMargin

/-- An assignment without its checks, whose texts name the tolerances. -/
def LineAssignment.withoutChecks (a : LineAssignment) : LineAssignment := { a with checks := [] }

section

variable {T : TextOps} {invoice : Invoice} {po : PurchaseOrderRead} {s t : Tolerances}

theorem LineOk.widen [DecimalContext] {line : InvoiceLine} (h : LineOk s line) (hwide : s.Widens t) : LineOk t line := by
  obtain ⟨q, p, total, hq, hp, htotal, hle⟩ := h
  exact ⟨q, p, total, hq, hp, htotal, hle.trans ((Decimal.le_iff _ _).1 hwide.amount)⟩

theorem HeaderOk.widen [DecimalContext] (h : HeaderOk invoice po s) (hwide : s.Widens t) : HeaderOk invoice po t := by
  have hamount : s.amountAbsolute.toRat ≤ t.amountAbsolute.toRat := (Decimal.le_iff _ _).1 hwide.amount
  obtain ⟨⟨hissues, hcurrency, hne, hlines, hheader⟩, hcode, hpo⟩ := h
  obtain ⟨subtotal, tax, total, hsubtotal, htax, htotal, hsum, hadd⟩ := hheader
  refine ⟨⟨hissues, hcurrency, hne, fun line hline => (hlines line hline).widen hwide, ?_⟩, hcode, ?_⟩
  · exact ⟨subtotal, tax, total, hsubtotal, htax, htotal, hsum.trans hamount, hadd.trans hamount⟩
  · exact fun line hline amount hamt => (hpo line hline amount hamt).trans hamount

/-- The allowance is the tolerance times the size of the price, which is not negative. -/
theorem PriceOk.widen [DecimalContext] {poLine : PurchaseOrderLine} {u : Decimal} (h : PriceOk s poLine u)
    (hwide : s.Widens t) :
    PriceOk t poLine u := by
  have hprice : s.unitPriceRelative.toRat ≤ t.unitPriceRelative.toRat := (Decimal.le_iff _ _).1 hwide.unitPrice
  exact ⟨h.1.trans (DecimalContext.rounded_mono (mul_le_mul_of_nonneg_left hprice (abs_nonneg _))), h.2⟩

theorem PairOk.widen [DecimalContext] {p : Pair invoice po} (h : PairOk s p) (hwide : s.Widens t) : PairOk t p where
  score := hwide.threshold ▸ h.score
  quantity := fun q hq => (h.quantity q hq).trans ((Decimal.le_iff _ _).1 hwide.quantity)
  unitPrice := fun u hu => (h.unitPrice u hu).widen hwide
  lineTotal := fun total htotal => (h.lineTotal total htotal).trans ((Decimal.le_iff _ _).1 hwide.amount)

theorem Acceptable.widen [DecimalContext] {pairs : List (Pair invoice po)} (h : Acceptable T invoice po s pairs)
    (hwide : s.Widens t) : Acceptable T invoice po t pairs where
  header := h.header.widen hwide
  resolved := (linesResolved_congr hwide.threshold hwide.margin).1 h.resolved
  poLines := h.poLines
  pairs := fun p hp => (h.pairs p hp).widen hwide

/-- The two-way engine. -/
theorem matchInvoice_widen [DecimalContext] {policy policy' : MatchingPolicy}
    (hwide : policy.toTolerances.Widens policy'.toTolerances)
    (h : (matchInvoice T invoice po policy).decision = .matched) :
    (matchInvoice T invoice po policy').decision = .matched ∧
      (matchInvoice T invoice po policy').lineAssignments.map LineAssignment.withoutChecks =
        (matchInvoice T invoice po policy).lineAssignments.map LineAssignment.withoutChecks := by
  constructor
  · have haccept := (matched_iff.1 h).widen hwide
    rw [selectedPairs_congr hwide.threshold hwide.margin] at haccept
    exact matched_iff.2 haccept
  · rw [lineAssignments_matchInvoice, lineAssignments_matchInvoice,
      assignedPairs_congr hwide.threshold hwide.margin, List.map_map, List.map_map]
    rfl

end

section

variable {T : TextOps} {invoice : Invoice} {po : PurchaseOrderRead} {context : ThreeWayContextSnapshot}
  {policy policy' : ThreeWayMatchingPolicy}

theorem clean_quantityValueChecks_widen [DecimalContext] {line : ReceiptLineContextRead} {i : ℕ} {l : InvoiceLine}
    {poLine : PurchaseOrderLine} {q ordered available previous : Decimal}
    (hwide : policy.toTolerances.Widens policy'.toTolerances)
    (hallow : policy.allowPartialInvoice = policy'.allowPartialInvoice)
    (h : Clean (quantityValueChecks policy line i l poLine q ordered available previous)) :
    Clean (quantityValueChecks policy' line i l poLine q ordered available previous) := by
  have hquantity : policy.quantityAbsolute.toRat ≤ policy'.quantityAbsolute.toRat :=
    (Decimal.le_iff _ _).1 hwide.quantity
  rw [clean_quantityValueChecks] at h ⊢
  obtain ⟨hpart, havailable, hprice, htotal⟩ := h
  refine ⟨fun hno => ?_, ?_, fun u hu => (hprice u hu).widen hwide, fun total ht => ?_⟩
  · exact (DecimalContext.rounded_mono (by linarith)).trans (hpart (hallow.trans hno))
  · exact havailable.trans (DecimalContext.rounded_mono (by linarith))
  · exact (htotal total ht).trans ((Decimal.le_iff _ _).1 hwide.amount)

theorem clean_receiptChecks_widen [DecimalContext] {line : ReceiptLineContextRead} {i : ℕ} {q : Option Decimal} {r o : Decimal}
    (hwide : policy.toTolerances.Widens policy'.toTolerances)
    (h : Clean (receiptChecks invoice context policy line i q r o)) :
    Clean (receiptChecks invoice context policy' line i q r o) := by
  have hquantity : policy.quantityAbsolute.toRat ≤ policy'.quantityAbsolute.toRat :=
    (Decimal.le_iff _ _).1 hwide.quantity
  rw [receiptChecks, clean_append] at h ⊢
  refine ⟨h.1, ?_⟩
  have hreceived := h.2
  rw [clean_receivedChecks] at hreceived ⊢
  exact hreceived.trans (DecimalContext.rounded_mono (by linarith))

theorem clean_keptChecks_widen [DecimalContext] {p : Pair invoice po} (hwide : policy.toTolerances.Widens policy'.toTolerances)
    (h : Clean (keptChecks (assignment T policy.toTolerances p).checks)) :
    Clean (keptChecks (assignment T policy'.toTolerances p).checks) := by
  rw [keptChecks_assignment] at h ⊢
  simp only [clean_cons, clean_nil, and_true, descriptionCheck, status_comparisonCheck, CheckStatus.of_eq_passed,
    decide_eq_true_eq] at h ⊢
  exact hwide.threshold ▸ h

/-- A pass of the loop that leaves no failed check does so under the wider policy, with the same draft. -/
theorem threeWayAssignment_widen [DecimalContext] {p : Pair invoice po} {o : LineAssignment × Option AllocationDraft}
    (hwide : policy.toTolerances.Widens policy'.toTolerances)
    (hallow : policy.allowPartialInvoice = policy'.allowPartialInvoice)
    (h : threeWayAssignment invoice po context policy (assignment T policy.toTolerances p) = some o)
    (hclean : Clean o.1.checks) :
    ∃ o', threeWayAssignment invoice po context policy' (assignment T policy'.toTolerances p) = some o' ∧
      Clean o'.1.checks ∧ o'.2 = o.2 ∧ o'.1.withoutChecks = o.1.withoutChecks := by
  have hsame : ∀ {line l poLine received ordered},
      PassReads invoice po context (assignment T policy.toTolerances p) line l poLine received ordered →
        PassReads invoice po context (assignment T policy'.toTolerances p) line l poLine received ordered := by
    intro line l poLine received ordered h
    exact ⟨h.receivedText, h.orderedText, h.entry, h.invoiceLine, h.orderLine⟩
  obtain ⟨line, l, poLine, received, ordered, hreads, ⟨hq, rfl⟩ | ⟨q, available, previous, hq, ha, hp, rfl⟩⟩ :=
    threeWayAssignment_eq_some.1 h
  · simp only [clean_append] at hclean
    refine ⟨_, threeWayAssignment_eq_some.2 ⟨line, l, poLine, received, ordered, hsame hreads, .inl ⟨hq, rfl⟩⟩, ?_, rfl, rfl⟩
    simp only [clean_append]
    exact ⟨clean_keptChecks_widen hwide hclean.1, clean_receiptChecks_widen hwide hclean.2⟩
  · simp only [clean_append] at hclean
    refine ⟨_, threeWayAssignment_eq_some.2 ⟨line, l, poLine, received, ordered, hsame hreads,
      .inr ⟨q, available, previous, hq, ha, hp, rfl⟩⟩, ?_, rfl, rfl⟩
    simp only [clean_append]
    exact ⟨⟨clean_keptChecks_widen hwide hclean.1.1, clean_receiptChecks_widen hwide hclean.1.2⟩,
      clean_quantityValueChecks_widen hwide hallow hclean.2⟩

theorem outcomes_widen [DecimalContext] (hwide : policy.toTolerances.Widens policy'.toTolerances)
    (hallow : policy.allowPartialInvoice = policy'.allowPartialInvoice) {pairs : List (Pair invoice po)}
    {outcomes : List (LineAssignment × Option AllocationDraft)}
    (h : List.Forall₂ (fun p o => threeWayAssignment invoice po context policy
      (assignment T policy.toTolerances p) = some o) pairs outcomes)
    (hclean : ∀ o ∈ outcomes, Clean o.1.checks) :
    ∃ outcomes', List.Forall₂ (fun p o => threeWayAssignment invoice po context policy'
        (assignment T policy'.toTolerances p) = some o) pairs outcomes' ∧
      (∀ o ∈ outcomes', Clean o.1.checks) ∧
      outcomes'.filterMap (·.2) = outcomes.filterMap (·.2) ∧
      outcomes'.map (·.1.withoutChecks) = outcomes.map (·.1.withoutChecks) := by
  induction h with
  | nil => exact ⟨[], .nil, by simp, rfl, rfl⟩
  | @cons p o pairs outcomes hpo _ ih =>
    obtain ⟨o', ho', hclean', hdraft, hsame⟩ := threeWayAssignment_widen hwide hallow hpo (hclean o (by simp))
    obtain ⟨outcomes', houtcomes', hclean'', hdrafts, hsames⟩ := ih fun x hx => hclean x (by simp [hx])
    refine ⟨o' :: outcomes', .cons ho' houtcomes', ?_, ?_, ?_⟩
    · exact List.forall_mem_cons.2 ⟨hclean', hclean''⟩
    · rw [List.filterMap_cons, List.filterMap_cons, hdraft, hdrafts]
    · rw [List.map_cons, List.map_cons, hsame, hsames]

theorem matchInvoiceThreeWay_widen [DecimalContext] (hwide : policy.toTolerances.Widens policy'.toTolerances)
    (hallow : policy.allowPartialInvoice = policy'.allowPartialInvoice) {r : MatchResult}
    {drafts : List AllocationDraft} (h : matchInvoiceThreeWay T invoice po context policy = some (r, drafts))
    (hmatched : r.decision = .matched) :
    ∃ r', matchInvoiceThreeWay T invoice po context policy' = some (r', drafts) ∧ r'.decision = .matched ∧
      r'.lineAssignments.map LineAssignment.withoutChecks = r.lineAssignments.map LineAssignment.withoutChecks := by
  obtain ⟨outcomes, houtcomes, rfl, rfl⟩ := matchInvoiceThreeWay_eq_some.1 h
  obtain ⟨⟨hheader, hresolved⟩, hclean⟩ := decision_threeWay.1 hmatched
  obtain ⟨outcomes', houtcomes', hclean', hdrafts, hsame⟩ := outcomes_widen hwide hallow houtcomes hclean
  rw [assignedPairs_congr hwide.threshold hwide.margin] at houtcomes'
  have hmatched' := decision_threeWay.2 ⟨⟨hheader.widen hwide,
    (linesResolved_congr hwide.threshold hwide.margin).1 hresolved⟩, hclean'⟩
  refine ⟨_, matchInvoiceThreeWay_eq_some.2 ⟨outcomes', houtcomes', rfl, ?_⟩, hmatched', ?_⟩
  · rw [if_pos hmatched, if_pos hmatched', hdrafts]
  · simpa [MatchResult.ofChecks, Function.comp_def] using hsame

end

/-- Both engines are monotone in their tolerances: what is matched under a policy is matched under every policy with
the same description parameters and no smaller tolerance, with the same assignments, and three-way with the same
allocations. -/
theorem matching_monotone [DecimalContext] (T : TextOps) (invoice : Invoice) (po : PurchaseOrderRead)
    (context : ThreeWayContextSnapshot) :
    (∀ policy policy' : MatchingPolicy, policy.toTolerances.Widens policy'.toTolerances →
      (matchInvoice T invoice po policy).decision = .matched →
      (matchInvoice T invoice po policy').decision = .matched ∧
        (matchInvoice T invoice po policy').lineAssignments.map LineAssignment.withoutChecks =
          (matchInvoice T invoice po policy).lineAssignments.map LineAssignment.withoutChecks) ∧
    ∀ policy policy' : ThreeWayMatchingPolicy, policy.toTolerances.Widens policy'.toTolerances →
      policy.allowPartialInvoice = policy'.allowPartialInvoice → ∀ r drafts,
      matchInvoiceThreeWay T invoice po context policy = some (r, drafts) → r.decision = .matched →
      ∃ r', matchInvoiceThreeWay T invoice po context policy' = some (r', drafts) ∧ r'.decision = .matched ∧
        r'.lineAssignments.map LineAssignment.withoutChecks = r.lineAssignments.map LineAssignment.withoutChecks :=
  ⟨fun _ _ hwide h => matchInvoice_widen hwide h,
    fun _ _ hwide hallow _ _ h hmatched => matchInvoiceThreeWay_widen hwide hallow h hmatched⟩

theorem tenth_nonneg : 0 ≤ (⟨false, 1, -1⟩ : Decimal).toRat := by norm_num [Decimal.toRat, Decimal.int]

/-- A tenth of a currency unit is tolerated, five times the default. -/
def tenthTolerances : Tolerances :=
  { Tolerances.default with amountAbsolute := ⟨false, 1, -1⟩, amount_nonneg := tenth_nonneg }

theorem widens_tenthTolerances : Tolerances.default.Widens tenthTolerances where
  amount := by decide +kernel
  quantity := (Decimal.le_iff _ _).2 le_rfl
  unitPrice := (Decimal.le_iff _ _).2 le_rfl
  threshold := rfl
  margin := rfl

/-- The tap is matched under the default policies, and so it is with a tenth tolerated. -/
theorem matching_monotone_tap :
    (matchInvoice asciiTextOps (tapExtraction 5 4).invoice tapPurchase.toRead
      { tenthTolerances with version := "matching-v3" }).decision = .matched ∧
    ∃ r r' drafts, matchInvoiceThreeWay asciiTextOps (tapExtraction 5 4).invoice tapPurchase.toRead
        (buildContext tapEnv.dumps [tapReceipt] [] tapPurchase .default (Uuid.ofNat 4)).1 .default = some (r, drafts) ∧
      r.decision = .matched ∧ matchInvoiceThreeWay asciiTextOps (tapExtraction 5 4).invoice tapPurchase.toRead
        (buildContext tapEnv.dumps [tapReceipt] [] tapPurchase .default (Uuid.ofNat 4)).1
        { tenthTolerances with version := "three-way-v3", allowPartialInvoice := true } = some (r', drafts) ∧
      r'.decision = .matched := by
  obtain ⟨htwo, hthree⟩ := matching_monotone asciiTextOps (tapExtraction 5 4).invoice tapPurchase.toRead
    (buildContext tapEnv.dumps [tapReceipt] [] tapPurchase .default (Uuid.ofNat 4)).1
  refine ⟨(htwo .default { tenthTolerances with version := "matching-v3" } widens_tenthTolerances
    (by decide +kernel)).1, ?_⟩
  have hany : (matchInvoiceThreeWay asciiTextOps (tapExtraction 5 4).invoice tapPurchase.toRead
      (buildContext tapEnv.dumps [tapReceipt] [] tapPurchase .default (Uuid.ofNat 4)).1 .default).any
      (fun x => x.1.decision = .matched) = true := by decide +kernel
  obtain ⟨⟨r, drafts⟩, hsome, hmatched⟩ := (Option.any_eq_true _ _).1 hany
  have hmatched : r.decision = .matched := of_decide_eq_true hmatched
  obtain ⟨r', hr', hmatched', -⟩ := hthree .default { tenthTolerances with
    version := "three-way-v3", allowPartialInvoice := true } widens_tenthTolerances rfl r drafts hsome hmatched
  exact ⟨r, r', drafts, hsome, hmatched, hr', hmatched'⟩

end InvoiceOps
