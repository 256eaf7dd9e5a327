import InvoiceOps.Matching.Call
import InvoiceOps.Matching.Fingerprint
import InvoiceOps.Matching.Routing

/-! When a match is repeated. A call returns the run that was made from the same receipts and the same
allocations of other documents, whatever the invoice itself has allocated since, and makes another one as soon
as a receipt, a reversal or an allocation of another document has been added. -/

namespace InvoiceOps

open Calendar StateMachine

/-- A receipt at a later time: it may have been reversed. -/
def Later (r r' : GoodsReceipt) : Prop := r' = r ∨ r.reversal = none ∧ ∃ reversal, r' = r.reverse reversal

/-- The receipts at a later time: those that were there, and new ones. -/
def Grown (rs rs' : List GoodsReceipt) : Prop := ∃ old new, rs' = old ++ new ∧ List.Forall₂ Later rs old

section

variable {r r' r'' : GoodsReceipt} {rs rs' rs'' : List GoodsReceipt}

theorem Later.frame (h : Later r r') : r'.id = r.id ∧ r'.purchaseOrderId = r.purchaseOrderId ∧ r'.lines = r.lines := by
  rcases h with rfl | ⟨-, reversal, rfl⟩
  · exact ⟨rfl, rfl, rfl⟩
  · exact ⟨rfl, rfl, rfl⟩

theorem Later.trans (h : Later r r') (h' : Later r' r'') : Later r r'' := by
  rcases h with rfl | ⟨hnone, reversal, rfl⟩
  · exact h'
  · rcases h' with rfl | ⟨hnone', -⟩
    · exact .inr ⟨hnone, reversal, rfl⟩
    · cases hnone'

theorem forall₂_later_refl (rs : List GoodsReceipt) : List.Forall₂ Later rs rs :=
  List.forall₂_same.2 fun _ _ => .inl rfl

theorem Grown.refl (rs : List GoodsReceipt) : Grown rs rs := ⟨rs, [], by simp, forall₂_later_refl rs⟩

theorem Grown.trans (h : Grown rs rs') (h' : Grown rs' rs'') : Grown rs rs'' := by
  obtain ⟨old, new, rfl, hold⟩ := h
  obtain ⟨old', new', rfl, hold'⟩ := h'
  have hfirst := (List.forall₂_take_append old' old new hold'.flip).flip
  refine ⟨old'.take old.length, old'.drop old.length ++ new', ?_, ?_⟩
  · rw [← List.append_assoc, List.take_append_drop]
  · refine (Lists.forall₂_comp hold hfirst).imp fun r r'' hr => ?_
    obtain ⟨r', h, h'⟩ := hr
    exact h.trans h'

/-- A selection by what does not change over time. -/
theorem Grown.filter {p : GoodsReceipt → Bool} (hp : ∀ r r', Later r r' → p r' = p r) (h : Grown rs rs') :
    Grown (rs.filter p) (rs'.filter p) := by
  obtain ⟨old, new, rfl, hold⟩ := h
  refine ⟨old.filter p, new.filter p, List.filter_append .., ?_⟩
  induction hold with
  | nil => exact .nil
  | @cons r r' rs old hr _ ih =>
    simp only [List.filter_cons, hp r r' hr]
    split_ifs
    · exact .cons hr ih
    · exact ih

/-- Counted with the reversed ones or without, no receipt is lost. -/
theorem countP_le_of_later {p : GoodsReceipt → Bool}
    (hp : ∀ r r', Later r r' → p r = true → p r' = true) {old : List GoodsReceipt} (h : List.Forall₂ Later rs old) :
    rs.countP p ≤ old.countP p := by
  induction h with
  | nil => exact le_rfl
  | @cons r r' rs old hr _ ih =>
    simp only [List.countP_cons]
    have hhead := hp r r' hr
    split_ifs with h1 h2
    · omega
    · exact absurd (hhead h1) h2
    · omega
    · omega

theorem length_receiptsOn (p : GoodsReceipt → Bool) (poLineId : Uuid) : (receiptsOn rs p poLineId).length =
    rs.countP fun r => p r && (r.lines.find? (·.purchaseOrderLineId = poLineId)).isSome := by
  unfold receiptsOn
  induction rs with
  | nil => rfl
  | cons r rs ih =>
    rw [List.countP_cons, ← ih]
    cases hp : p r with
    | false => simp [hp]
    | true =>
      cases hl : r.lines.find? (·.purchaseOrderLineId = poLineId) with
      | none => simp [hp, hl]
      | some l => simp [hp, hl]

/-- Active or reversed, a receipt counts once on a line it is on. -/
theorem length_active_add_reversed (rs : List GoodsReceipt) (poLineId : Uuid) :
    (activeOn rs poLineId).length + (reversedOn rs poLineId).length =
      rs.countP fun r => (r.lines.find? (·.purchaseOrderLineId = poLineId)).isSome := by
  unfold activeOn reversedOn
  rw [length_receiptsOn, length_receiptsOn]
  induction rs with
  | nil => rfl
  | cons r rs ih =>
    simp only [List.countP_cons]
    cases hr : r.reversal with
    | none => simp only [Option.isNone_none, Option.isSome_none, Bool.true_and, Bool.false_and, Bool.false_eq_true,
        if_false]; omega
    | some reversal => simp only [Option.isNone_some, Option.isSome_some, Bool.true_and, Bool.false_and,
        Bool.false_eq_true, if_false]; omega

theorem covers_iff {poLineId : Uuid} :
    r.Covers poLineId ↔ (r.lines.find? (·.purchaseOrderLineId = poLineId)).isSome = true := by
  simp [GoodsReceipt.Covers]

/-- The reversed receipts on every line are as many as before: none was reversed. -/
theorem eq_of_reversed {po : PurchaseOrder} {old : List GoodsReceipt} (h : List.Forall₂ Later rs old)
    (hcovers : ∀ r ∈ old, ∃ line ∈ po.lines, r.Covers line.id)
    (hlength : ∀ line ∈ po.lines, (reversedOn rs line.id).length = (reversedOn old line.id).length) : old = rs := by
  simp only [reversedOn, length_receiptsOn] at hlength
  induction h with
  | nil => rfl
  | @cons r r' rs old hr hrs ih =>
    have hle : ∀ line : PurchaseOrderLine, _ ≤ _ := fun line => countP_le_of_later
      (p := fun r => r.reversal.isSome && (r.lines.find? (·.purchaseOrderLineId = line.id)).isSome)
      (fun r r' hlater hp => by
        rcases hlater with rfl | ⟨hnone, -⟩
        · exact hp
        · simp [hnone] at hp) hrs
    rcases hr with rfl | ⟨hnone, reversal, rfl⟩
    · rw [ih (fun r hr => hcovers r (List.mem_cons_of_mem _ hr)) fun line hline => ?_]
      have hline := hlength line hline
      simp only [List.countP_cons] at hline
      omega
    · -- the head was reversed, and counts on the line it is on
      obtain ⟨line, hline, hc⟩ := hcovers _ List.mem_cons_self
      have hcount := hlength line hline
      have htail := hle line
      simp only [List.countP_cons, hnone, Option.isSome_none, Bool.false_and, Bool.false_eq_true, if_false,
        GoodsReceipt.reverse, Option.isSome_some, Bool.true_and] at hcount
      have hfound : (r.lines.find? (·.purchaseOrderLineId = line.id)).isSome = true := covers_iff.1 hc
      rw [if_pos hfound] at hcount
      omega

/-- None of the receipts was reversed. -/
theorem eq_of_later {old : List GoodsReceipt} (h : List.Forall₂ Later rs old)
    (hnone : ∀ r ∈ rs, ∀ r' ∈ old, r'.id = r.id → r.reversal = none → r'.reversal = none) : old = rs := by
  induction h with
  | nil => rfl
  | @cons r r' rs old hr _ ih =>
    rw [ih fun r hr r' hr' => hnone r (List.mem_cons_of_mem _ hr) r' (List.mem_cons_of_mem _ hr')]
    rcases hr with rfl | ⟨hr, reversal, rfl⟩
    · rfl
    · cases hnone r List.mem_cons_self _ List.mem_cons_self rfl hr

/-- As many active and reversed receipts as before, on every line: the receipts are those. -/
theorem eq_of_lengths {po : PurchaseOrder} (h : Grown rs rs')
    (hcovers : ∀ r ∈ rs', ∃ line ∈ po.lines, r.Covers line.id)
    (hlength : ∀ line ∈ po.lines, (activeOn rs line.id).length = (activeOn rs' line.id).length ∧
      (reversedOn rs line.id).length = (reversedOn rs' line.id).length) : rs' = rs := by
  obtain ⟨old, new, rfl, hold⟩ := h
  have hnew : new = [] := by
    by_contra hne
    obtain ⟨r, hr⟩ := List.exists_mem_of_ne_nil _ hne
    obtain ⟨line, hline, hc⟩ := hcovers r (List.mem_append_right _ hr)
    obtain ⟨hactive, hreversed⟩ := hlength line hline
    have htotal := length_active_add_reversed rs line.id
    have htotal' := length_active_add_reversed (old ++ new) line.id
    have hle := countP_le_of_later
      (p := fun r => (r.lines.find? (·.purchaseOrderLineId = line.id)).isSome)
      (fun r r' hlater hp => by rw [hlater.frame.2.2]; exact hp) hold
    have hpos : 0 < new.countP fun r => (r.lines.find? (·.purchaseOrderLineId = line.id)).isSome :=
      List.countP_pos_iff.2 ⟨r, hr, covers_iff.1 hc⟩
    rw [List.countP_append] at htotal'
    omega
  subst hnew
  rw [List.append_nil] at hcovers hlength ⊢
  exact eq_of_reversed hold hcovers fun line hline => (hlength line hline).2

end

/-- Between two states of the tables, a receipt or a reversal of the purchase order was added, or an allocation
of another document on it. -/
def Added (db db' : Tables) (purchaseOrderId documentId : Uuid) : Prop :=
  (∃ r ∈ db'.receiptsOf purchaseOrderId, r.id ∉ (db.receiptsOf purchaseOrderId).map (·.id)) ∨
  (∃ r ∈ db.receiptsOf purchaseOrderId, ∃ r' ∈ db'.receiptsOf purchaseOrderId,
    r'.id = r.id ∧ r.reversal = none ∧ r'.reversal ≠ none) ∨
  ∃ a ∈ priorAllocations (db'.allocationsOf purchaseOrderId) documentId,
    a ∉ priorAllocations (db.allocationsOf purchaseOrderId) documentId

/-- The tables at a later time. -/
structure Grows (db db' : Tables) : Prop where
  orders : db.purchaseOrders ⊆ db'.purchaseOrders
  receipts : Grown db.receipts db'.receipts
  runs : db.runs <+: db'.runs
  contexts : db.contexts <+: db'.contexts
  allocations : db.allocations <+: db'.allocations

section

variable {db db' db'' : Tables} {p d : Uuid}

theorem Grows.refl (db : Tables) : Grows db db :=
  ⟨List.Subset.refl _, .refl _, List.prefix_refl _, List.prefix_refl _, List.prefix_refl _⟩

theorem Grows.trans (h : Grows db db') (h' : Grows db' db'') : Grows db db'' :=
  ⟨List.Subset.trans h.orders h'.orders, h.receipts.trans h'.receipts, h.runs.trans h'.runs, h.contexts.trans h'.contexts,
    h.allocations.trans h'.allocations⟩

theorem Grows.receiptsOf (h : Grows db db') (p : Uuid) : Grown (db.receiptsOf p) (db'.receiptsOf p) :=
  h.receipts.filter fun r r' hr => by rw [hr.frame.2.1]

theorem Grows.priorAllocations (h : Grows db db') (p d : Uuid) :
    priorAllocations (db.allocationsOf p) d <+: priorAllocations (db'.allocationsOf p) d :=
  (h.allocations.filter _).filter _

/-- When nothing was added, the receipts and the allocations of other documents are the same. -/
theorem eq_of_not_added (h : Grows db db') (hids : (db'.receipts.map (·.id)).Nodup)
    (hallocations : (db'.allocations.map (·.id)).Nodup) (hadded : ¬ Added db db' p d) :
    db'.receiptsOf p = db.receiptsOf p ∧
      priorAllocations (db'.allocationsOf p) d = priorAllocations (db.allocationsOf p) d := by
  simp only [Added, not_or] at hadded
  obtain ⟨hreceipt, hreversal, hallocation⟩ := hadded
  constructor
  · obtain ⟨old, new, heq, hold⟩ := h.receiptsOf p
    have holdIds : old.map (·.id) = (db.receiptsOf p).map (·.id) :=
      Lists.map_eq_map_of_forall₂ (hold.flip.imp fun _ _ hr => Later.frame hr |>.1)
    have hnew : new = [] := by
      by_contra hne
      obtain ⟨r, hr⟩ := List.exists_mem_of_ne_nil _ hne
      refine hreceipt ⟨r, by rw [heq]; exact List.mem_append_right _ hr, ?_⟩
      rw [← holdIds]
      have hnodup : ((old ++ new).map (·.id)).Nodup := heq ▸ hids.sublist (List.filter_sublist.map _)
      rw [List.map_append] at hnodup
      exact fun hmem => (List.nodup_append.1 hnodup).2.2 _ hmem _ (List.mem_map_of_mem hr) rfl
    rw [heq, hnew, List.append_nil]
    refine eq_of_later hold fun r hr r' hr' hid hnone => ?_
    by_contra hreversed
    exact hreversal ⟨r, hr, r', by rw [heq]; exact List.mem_append_left _ hr', hid, hnone, hreversed⟩
  · obtain ⟨new, hnew⟩ := h.priorAllocations p d
    have hnil : new = [] := by
      by_contra hne
      obtain ⟨a, ha⟩ := List.exists_mem_of_ne_nil _ hne
      refine hallocation ⟨a, by rw [← hnew]; exact List.mem_append_right _ ha, fun hmem => ?_⟩
      have hsub : (priorAllocations (db'.allocationsOf p) d).Sublist db'.allocations :=
        List.filter_sublist.trans List.filter_sublist
      have hnodup : ((priorAllocations (db.allocationsOf p) d ++ new).map (·.id)).Nodup :=
        hnew ▸ hallocations.sublist (hsub.map _)
      rw [List.map_append] at hnodup
      exact (List.nodup_append.1 hnodup).2.2 _ (List.mem_map_of_mem hmem) _ (List.mem_map_of_mem ha) rfl
    rw [← hnew, hnil, List.append_nil]

/-- The replay view of a purchase order for a document, as the tables are. -/
def MatchingEnv.view (E : MatchingEnv) (db : Tables) (po : PurchaseOrder) (documentId : Uuid) : List Json × Json :=
  letI := E.decimals
  replayView E.dumps (db.receiptsOf po.id) (db.allocationsOf po.id) po E.threeWayPolicy documentId

/-- When the views of the two states are the same, nothing was added. -/
theorem not_added_of_view {E : MatchingEnv} {po : PurchaseOrder} (h : Grows db db')
    (hcovers : ∀ r ∈ db'.receiptsOf po.id, ∃ line ∈ po.lines, r.Covers line.id)
    (hids : (db.receipts.map (·.id)).Nodup)
    (hview : E.view db po d = E.view db' po d) :
    ¬ Added db db' po.id d := by
  let _ : DecimalContext := E.decimals
  obtain ⟨hlines, hlength⟩ := lengths_of_view hview
  have hreceipts := eq_of_lengths (h.receiptsOf po.id) hcovers hlines
  have hprior := (h.priorAllocations po.id d).eq_of_length hlength
  rintro (⟨r, hr, hnew⟩ | ⟨r, hr, r', hr', hid, hnone, hreversed⟩ | ⟨a, ha, hnew⟩)
  · rw [hreceipts] at hr
    exact hnew (List.mem_map_of_mem hr)
  · rw [hreceipts] at hr'
    have hsame : r' = r :=
      List.inj_on_of_nodup_map (hids.sublist (List.filter_sublist.map _)) hr' hr hid
    exact hreversed (hsame ▸ hnone)
  · rw [← hprior] at ha
    exact hnew ha

end

/-- The key of a run without the fingerprint of its context. -/
def MatchKey.base (k : MatchKey) : MatchKey := { k with matchingContextFingerprint := "" }

theorem withFingerprint_eq_iff {k k' : MatchKey} :
    { k with matchingContextFingerprint := k'.matchingContextFingerprint } = k' ↔ k.base = k'.base := by
  obtain ⟨_, _, _, _, _, _⟩ := k
  obtain ⟨_, _, _, _, _, _⟩ := k'
  simp [MatchKey.base]

/-- No run of the same extraction and policy has a context with the replay fingerprint. -/
def NoReplay (db : Tables) (key : MatchKey) (fingerprint : String) : Prop :=
  ∀ r ∈ db.runs, r.key.base = key.base → ∀ x ∈ db.contexts, x.matchRunId = r.id → x.replayFingerprint ≠ fingerprint

section

variable {db : Tables} {key : MatchKey} {fingerprint : String} {run : MatchRun}

theorem noReplay_of_findPrior (h : db.findPrior key fingerprint = none) : NoReplay db key fingerprint := by
  intro r hr hkey x hx hid heq
  have hnone := List.find?_eq_none.1 h r (List.mem_reverse.2 hr)
  refine hnone (decide_eq_true ⟨?_, x, hx, hid, heq⟩)
  exact withFingerprint_eq_iff.2 hkey

theorem mem_of_findPrior (h : db.findPrior key fingerprint = some run) : run ∈ db.runs ∧ run.key.base = key.base ∧
    ∃ x ∈ db.contexts, x.matchRunId = run.id ∧ x.replayFingerprint = fingerprint := by
  have hfound := List.find?_some h
  simp only [decide_eq_true_eq] at hfound
  exact ⟨mem_runs_of_findPrior h, withFingerprint_eq_iff.1 hfound.1, hfound.2⟩

theorem mem_of_findExisting (h : db.findExisting key = some run) : run ∈ db.runs ∧ run.key = key :=
  ⟨List.mem_of_find?_eq_some h, by simpa using List.find?_some h⟩

end

/-- The context of a three-way run. -/
structure ContextOf (E : MatchingEnv) (db : Tables) (run : MatchRun) (x : ThreeWayContext) : Prop where
  mode : run.matchingMode = .threeWay
  built : ∃ po ∈ db.purchaseOrders, po.id = run.purchaseOrderId ∧ ∃ receipts allocations,
    x = contextRow run (E.build ⟨run.documentId, po, .threeWay⟩ receipts allocations) ∧
      run.matchingContextFingerprint = x.contextFingerprint

/-- Every three-way run has its context, and no two runs of the same extraction and policy have the same replay
fingerprint. -/
structure ReplaysOk (E : MatchingEnv) (db : Tables) : Prop where
  runIds : (db.runs.map (·.id)).Nodup
  runKeys : (db.runs.map (·.key)).Nodup
  allocationIds : (db.allocations.map (·.id)).Nodup
  contextIds : (db.contexts.map (·.matchRunId)).Nodup
  contextRuns : ∀ x ∈ db.contexts, x.matchRunId ∈ db.runs.map (·.id)
  contexts : ∀ r ∈ db.runs, r.matchingMode = .threeWay → ∃ x ∈ db.contexts, ContextOf E db r x
  unique : ∀ r ∈ db.runs, ∀ r' ∈ db.runs, r.key.base = r'.key.base → ∀ x ∈ db.contexts, ∀ x' ∈ db.contexts,
    x.matchRunId = r.id → x'.matchRunId = r'.id → x.replayFingerprint = x'.replayFingerprint → r = r'

/-- What a transaction is about to store: a run whose replay fingerprint is new, with its context. -/
inductive NewContext (E : MatchingEnv) (db : Tables) (run : MatchRun) : List ThreeWayContext → Prop
  | twoWay : run.matchingMode = .twoWay → NewContext E db run []
  | threeWay {x : ThreeWayContext} : ContextOf E db run x → NoReplay db run.key x.replayFingerprint →
      NewContext E db run [x]

def ReplayTxn (E : MatchingEnv) (db : Tables) : TxnPhase → Prop
  | .searched c x b => NoReplay db (E.key c x (some b)) b.replayFingerprint
  | .absent c x b | .decided c x b _ _ => ∀ context, b = some context → NoReplay db (E.key c x b) context.replayFingerprint
  | .ready (some _) _ rows => ∀ run ∈ rows.runs, NewContext E db run rows.contexts
  | .ready none _ rows => rows.contexts = []
  | .reversing receiptId purchaseOrderId _ => ∃ r ∈ db.receiptsOf purchaseOrderId, r.id = receiptId ∧ r.reversal = none
  | _ => True

/-- Others add no three-way run to a held purchase order, and no context to a run that is there. -/
structure KeepsReplays (held : Option Uuid) (db db' : Tables) : Prop where
  orders : db.purchaseOrders ⊆ db'.purchaseOrders
  receipts : ∀ p, held = some p → db.receiptsOf p <+: db'.receiptsOf p
  runs : ∀ r ∈ db'.runs, r ∉ db.runs → r.matchingMode = .threeWay → held ≠ some r.purchaseOrderId
  contexts : ∀ x ∈ db'.contexts, x ∉ db.contexts → x.matchRunId ∉ db.runs.map (·.id)

section

variable {E : MatchingEnv} {db db' : Tables} {w w' : MatchWorld} {a : MatchAct} {i : ℕ} {phase phase' : TxnPhase}
  {held : Option Uuid} {run : MatchRun} {rows : NewRows}

theorem KeepsReplays.refl (held : Option Uuid) (db : Tables) : KeepsReplays held db db :=
  ⟨List.Subset.refl _, fun _ _ => List.prefix_refl _, fun _ hr hnew => absurd hr hnew, fun _ hx hnew => absurd hx hnew⟩

theorem NoReplay.mono {key : MatchKey} {fingerprint : String} (h : NoReplay db key fingerprint)
    (hk : KeepsReplays held db db') (hmode : key.matchingMode = .threeWay) (hheld : held = some key.purchaseOrderId) :
    NoReplay db' key fingerprint := by
  intro r hr hkey x hx hid
  have hbase : r.matchingMode = key.matchingMode ∧ r.purchaseOrderId = key.purchaseOrderId :=
    ⟨congrArg MatchKey.matchingMode hkey, congrArg MatchKey.purchaseOrderId hkey⟩
  by_cases hold : r ∈ db.runs
  · by_cases hx' : x ∈ db.contexts
    · exact h r hold hkey x hx' hid
    · exact absurd (hid ▸ List.mem_map_of_mem hold) (hk.contexts x hx hx')
  · exact absurd (hheld.trans (congrArg some hbase.2.symm)) (hk.runs r hr hold (hbase.1.trans hmode))

theorem ContextOf.mono {x : ThreeWayContext} (h : ContextOf E db run x) (horders : db.purchaseOrders ⊆ db'.purchaseOrders) :
    ContextOf E db' run x := by
  obtain ⟨hmode, po, hpo, hrest⟩ := h
  exact ⟨hmode, po, horders hpo, hrest⟩

theorem ReplayTxn.mono (h : ReplayTxn E db phase) (hok : TxnOk E db phase) (hk : KeepsReplays phase.holds db db') :
    ReplayTxn E db' phase := by
  cases phase with
  | searched c x b => exact h.mono hk hok.2.1 (if_pos hok.2.1)
  | absent c x b =>
    rintro context rfl
    exact (h context rfl).mono hk hok.2.1 (if_pos hok.2.1)
  | decided c x b run drafts =>
    rintro context rfl
    exact (h context rfl).mono hk hok.context.1 (if_pos hok.context.1)
  | ready key visible rows =>
    cases key with
    | none => exact h
    | some key =>
      obtain ⟨c, x, b, run, rfl, hrows⟩ := hok
      intro run' hrun'
      have hnew := h run' hrun'
      rw [hrows.runs] at hrun'
      obtain rfl := List.mem_singleton.1 hrun'
      generalize rows.contexts = contexts at hnew ⊢
      cases hnew with
      | twoWay hmode => exact .twoWay hmode
      | threeWay hx hnone =>
        refine .threeWay (hx.mono hk.orders) (hnone.mono hk hx.mode ?_)
        exact if_pos hx.mode
  | reversing receiptId purchaseOrderId reversal =>
    obtain ⟨r, hr, hid⟩ := h
    exact ⟨r, (hk.receipts _ rfl).subset hr, hid⟩
  | _ => trivial

theorem Reads.replayTxn (h : Reads E db phase phase') (hok : TxnOk E db phase) (hreplay : ReplayTxn E db phase) :
    ReplayTxn E db phase' := by
  cases h with
  | noPrior hprior => exact noReplay_of_findPrior hprior
  | absentTwoWay => exact fun _ heq => by cases heq
  | absent => exact fun _ heq => Option.some.inj heq ▸ hreplay
  | decide => exact hreplay
  | @assess c x b run drafts ids allocations assessmentId risk caseId now hrows hrisk =>
    intro run' hrun'
    obtain rfl := List.mem_singleton.1 hrun'
    obtain ⟨hcall, hcontext, id, found, -, rfl, -⟩ := hok
    cases b with
    | none => exact .twoWay hcontext
    | some b =>
      obtain ⟨hmode, receipts, -, rfl⟩ := hcontext
      refine .threeWay ⟨hmode, c.purchaseOrder, hcall.1, rfl, receipts, db.allocationsOf c.purchaseOrder.id, ?_, rfl⟩
        (hreplay _ rfl)
      have hcall' : (⟨c.documentId, c.purchaseOrder, .threeWay⟩ : MatchCall) = c := by rw [← hmode]
      exact congrArg (fun c' => contextRow _ (E.build c' _ _)) hcall'.symm
  | repair => exact rfl
  | _ => trivial

theorem ReplaysOk.congr (h : ReplaysOk E db) (horders : db.purchaseOrders ⊆ db'.purchaseOrders)
    (hruns : db'.runs = db.runs) (hcontexts : db'.contexts = db.contexts)
    (hallocations : db'.allocations = db.allocations) : ReplaysOk E db' := by
  obtain ⟨h1, h2, h3, h4, h5, h6, h7⟩ := h
  refine ⟨?_, ?_, ?_, ?_, ?_, fun r hr hmode => ?_, ?_⟩
  all_goals simp only [hruns, hcontexts, hallocations] at *
  all_goals try assumption
  obtain ⟨x, hx, hcontext⟩ := h6 r hr hmode
  exact ⟨x, hx, hcontext.mono horders⟩

theorem ReplaysOk.insert_nil (h : ReplaysOk E db) (hruns : rows.runs = []) (hcontexts : rows.contexts = [])
    (haccepts : db.Accepts rows) : ReplaysOk E (db.insert rows) := by
  have hr : (db.insert rows).runs = db.runs := by simp [Tables.insert, hruns]
  have hc : (db.insert rows).contexts = db.contexts := by simp [Tables.insert, hcontexts]
  refine ⟨hr ▸ h.runIds, hr ▸ h.runKeys, haccepts.allocationIds, hc ▸ h.contextIds, hr ▸ hc ▸ h.contextRuns,
    fun r hmem hmode => ?_, ?_⟩
  · obtain ⟨x, hx, hcontext⟩ := h.contexts r (hr ▸ hmem) hmode
    exact ⟨x, hc ▸ hx, hcontext.mono (List.Subset.refl _)⟩
  · rw [hr, hc]
    exact h.unique

/-- The context of a run is not that of another one. -/
theorem ContextOf.matchRunId {x : ThreeWayContext} (h : ContextOf E db run x) : x.matchRunId = run.id := by
  obtain ⟨-, po, -, -, receipts, allocations, rfl, -⟩ := h
  rfl

/-- A new run is committed with its context. -/
theorem ReplaysOk.insert (h : ReplaysOk E db) (hruns : rows.runs = [run]) (hnew : NewContext E db run rows.contexts)
    (haccepts : db.Accepts rows) : ReplaysOk E (db.insert rows) := by
  obtain ⟨hfresh, hkey⟩ := haccepts.runs run (by simp [hruns])
  have hr : (db.insert rows).runs = db.runs ++ [run] := by rw [Tables.insert, hruns]
  have hids : ((db.insert rows).runs.map (·.id)).Nodup := hr ▸ Lists.nodup_map_snoc h.runIds hfresh
  have hkeys : ((db.insert rows).runs.map (·.key)).Nodup := hr ▸ Lists.nodup_map_snoc h.runKeys hkey
  have hold : ∀ x ∈ db.contexts, x.matchRunId ≠ run.id := fun x hx heq => hfresh (heq ▸ h.contextRuns x hx)
  have hcontexts : ∀ r ∈ db.runs, r.matchingMode = .threeWay →
      ∃ x ∈ (db.insert rows).contexts, ContextOf E (db.insert rows) r x := by
    intro r hr hmode
    obtain ⟨x, hx, hcontext⟩ := h.contexts r hr hmode
    exact ⟨x, List.mem_append_left _ hx, hcontext.mono (List.Subset.refl _)⟩
  generalize hcs : rows.contexts = contexts at hnew
  have hc : (db.insert rows).contexts = db.contexts ++ contexts := by rw [Tables.insert, hcs]
  cases hnew with
  | twoWay hmode =>
    rw [List.append_nil] at hc
    refine ⟨hids, hkeys, haccepts.allocationIds, hc ▸ h.contextIds, ?_, fun r hmem hm => ?_, ?_⟩
    · rw [hc, hr, List.map_append]
      exact fun x hx => List.mem_append_left _ (h.contextRuns x hx)
    · rw [hr] at hmem
      rcases List.mem_append.1 hmem with hmem | hmem
      · exact hcontexts r hmem hm
      · obtain rfl := List.mem_singleton.1 hmem
        rw [hmode] at hm
        cases hm
    · rw [hr, hc]
      intro r hmem r' hmem' hbase x hx x' hx' hid hid'
      rcases List.mem_append.1 hmem with hmem | hmem
      · rcases List.mem_append.1 hmem' with hmem' | hmem'
        · exact h.unique r hmem r' hmem' hbase x hx x' hx' hid hid'
        · obtain rfl := List.mem_singleton.1 hmem'
          exact absurd hid' (hold x' hx')
      · obtain rfl := List.mem_singleton.1 hmem
        exact absurd hid (hold x hx)
  | @threeWay x hx hnone =>
    have hxid := hx.matchRunId
    have hxnew : x.matchRunId ∉ db.contexts.map (·.matchRunId) := haccepts.contexts x (hcs ▸ List.mem_singleton_self x)
    refine ⟨hids, hkeys, haccepts.allocationIds, hc ▸ Lists.nodup_map_snoc h.contextIds hxnew, ?_,
      fun r hmem hm => ?_, ?_⟩
    · rw [hc, hr, List.map_append]
      exact Lists.mem_keys_snoc h.contextRuns hxid
    · rw [hr] at hmem
      rcases List.mem_append.1 hmem with hmem | hmem
      · exact hcontexts r hmem hm
      · obtain rfl := List.mem_singleton.1 hmem
        exact ⟨x, hc ▸ List.mem_append_right _ (List.mem_singleton_self x), hx.mono (List.Subset.refl _)⟩
    · rw [hr, hc]
      -- the contexts of the new run are `x`, and no other run has its replay fingerprint
      have hself : ∀ y ∈ db.contexts ++ [x], y.matchRunId = run.id → y = x := by
        intro y hy hid
        rcases List.mem_append.1 hy with hy | hy
        · exact absurd hid (hold y hy)
        · exact List.mem_singleton.1 hy
      have hother : ∀ r ∈ db.runs, ∀ y ∈ db.contexts ++ [x], y.matchRunId = r.id → y ∈ db.contexts := by
        intro r hr y hy hid
        rcases List.mem_append.1 hy with hy | hy
        · exact hy
        · rw [List.mem_singleton.1 hy, hxid] at hid
          exact absurd (hid ▸ List.mem_map_of_mem hr) hfresh
      intro r hmem r' hmem' hbase y hy y' hy' hid hid' hfp
      rcases List.mem_append.1 hmem with hr₁ | hr₁ <;> rcases List.mem_append.1 hmem' with hr₂ | hr₂
      · exact h.unique r hr₁ r' hr₂ hbase y (hother r hr₁ y hy hid) y' (hother r' hr₂ y' hy' hid') hid hid' hfp
      · obtain rfl := List.mem_singleton.1 hr₂
        rw [hself y' hy' hid'] at hfp
        exact absurd hfp (hnone r hr₁ hbase y (hother r hr₁ y hy hid) hid)
      · obtain rfl := List.mem_singleton.1 hr₁
        rw [hself y hy hid] at hfp
        exact absurd hfp.symm (hnone r' hr₂ hbase.symm y' (hother r' hr₂ y' hy' hid') hid')
      · rw [List.mem_singleton.1 hr₁, List.mem_singleton.1 hr₂]

structure ReplayInv (E : MatchingEnv) (w : MatchWorld) : Prop where
  allocation : AllocationInv E w
  lines : LinesOk w.db
  tables : ReplaysOk E w.db
  txns : ∀ i phase, w.txns i = some phase → ReplayTxn E w.db phase

theorem ReplayInv.update {phase : Option TxnPhase} (h : ReplayInv E w) (hstep : MatchMoves E w a w')
    (htables : ReplaysOk E w'.db) (htxns : w'.txns = Function.update w.txns i phase)
    (hkeeps : ∀ j ph, j ≠ i → w.txns j = some ph → KeepsReplays ph.holds w.db w'.db)
    (hphase : ∀ ph, phase = some ph → ReplayTxn E w'.db ph) : ReplayInv E w' := by
  refine ⟨h.allocation.step hstep, h.lines.step h.allocation hstep, htables, ?_⟩
  refine forall_txns_update h.txns htxns (fun j ph hji hj hreplay => ?_) hphase
  exact hreplay.mono (h.allocation.txns j ph hj) (hkeeps j ph hji hj)

/-- A commit of a match adds a three-way run to a purchase order only when it holds its row. -/
theorem KeepsReplays.insert (h : ReplayInv E w) {key : Option MatchKey} {visible : List RiskFeatureRecord}
    (hi : w.txns i = some (.ready key visible rows)) (haccepts : w.db.Accepts rows) {j : ℕ} (hji : j ≠ i)
    (hj : w.txns j = some phase) : KeepsReplays phase.holds w.db (w.db.insert rows) := by
  have hready := h.allocation.txns i _ hi
  have hreplay := h.txns i _ hi
  refine ⟨List.Subset.refl _, fun _ _ => List.prefix_refl _, fun r hr hnew hmode hheld => ?_, fun x hx hnew => ?_⟩
  · have hmem := (List.mem_append.1 hr).resolve_left hnew
    cases key with
    | none =>
      rw [hready.1] at hmem
      cases hmem
    | some key =>
      obtain ⟨c, y, b, run, rfl, hrows⟩ := hready
      rw [hrows.runs] at hmem
      obtain rfl := List.mem_singleton.1 hmem
      have hlock : w.locks r.purchaseOrderId = some i := h.allocation.locks i _ _ hi (if_pos hmode)
      exact hji (Option.some.inj ((h.allocation.locks j phase _ hj hheld).symm.trans hlock))
  · have hmem := (List.mem_append.1 hx).resolve_left hnew
    cases key with
    | none =>
      rw [show rows.contexts = [] from hreplay] at hmem
      cases hmem
    | some key =>
      obtain ⟨c, y, b, run, rfl, hrows⟩ := hready
      have hcontext := hreplay run (by simp [hrows.runs])
      generalize rows.contexts = contexts at hcontext hmem
      cases hcontext with
      | twoWay => cases hmem
      | threeWay hctx =>
        rw [List.mem_singleton.1 hmem, hctx.matchRunId]
        exact (haccepts.runs run (by simp [hrows.runs])).1

theorem ReplayInv.step (h : ReplayInv E w) (hstep : MatchMoves E w a w') : ReplayInv E w' := by
  have hends : ∀ {db' : Tables} (ph : TxnPhase), (none : Option TxnPhase) = some ph → ReplayTxn E db' ph :=
    fun _ hph => by cases hph
  have hothers : ∀ {db' : Tables}, MatchMoves E w a { w with db := db' } → SameRows w.db db' →
      w.db.purchaseOrders ⊆ db'.purchaseOrders → (∀ p, w.db.receiptsOf p <+: db'.receiptsOf p) →
      ReplayInv E { w with db := db' } := by
    intro db' hstep hs horders hreceipts
    refine ⟨h.allocation.step hstep, h.lines.step h.allocation hstep,
      h.tables.congr horders hs.runs hs.contexts hs.allocations, fun j ph hj => ?_⟩
    refine (h.txns j ph hj).mono (h.allocation.txns j ph hj) ⟨horders, fun p _ => hreceipts p, ?_, ?_⟩
    · exact fun r hr hnew => absurd (hs.runs ▸ hr) hnew
    · exact fun x hx hnew => absurd (hs.contexts ▸ hx) hnew
  have hmoves := hstep
  cases hstep with
  | order =>
    exact hothers hmoves ⟨rfl, rfl, rfl, rfl, rfl, rfl⟩ (List.subset_append_left _ _) fun _ => List.prefix_refl _
  | extraction =>
    exact hothers hmoves ⟨rfl, rfl, rfl, rfl, rfl, rfl⟩ (List.Subset.refl _) fun _ => List.prefix_refl _
  | @receipt r =>
    refine hothers hmoves ⟨rfl, rfl, rfl, rfl, rfl, rfl⟩ (List.Subset.refl _) fun p => ?_
    exact (Keeps.receipt r : Keeps (some p) w.db _).receipts p rfl
  | lockReceipt => exact h.update hmoves h.tables rfl (fun _ _ _ _ => .refl _ _) fun _ hph => by cases hph; trivial
  | @lockReversal i r reversal hr hnone =>
    refine h.update hmoves h.tables rfl (fun _ _ _ _ => .refl _ _) fun _ hph => ?_
    obtain rfl := Option.some.inj hph
    exact ⟨r, List.mem_filter.2 ⟨hr, decide_eq_true rfl⟩, rfl, hnone⟩
  | lockMatch => exact h.update hmoves h.tables rfl (fun _ _ _ _ => .refl _ _) fun _ hph => by cases hph; trivial
  | enterMatch => exact h.update hmoves h.tables rfl (fun _ _ _ _ => .refl _ _) fun _ hph => by cases hph; trivial
  | @read i phase phase' hi hread =>
    refine h.update hmoves h.tables rfl (fun _ _ _ _ => .refl _ _) fun ph hph => ?_
    obtain rfl := Option.some.inj hph
    exact hread.replayTxn (h.allocation.txns i phase hi) (h.txns i phase hi)
  | finish => exact h.update hmoves h.tables rfl (fun _ _ _ _ => .refl _ _) hends
  | rollback => exact h.update hmoves h.tables rfl (fun _ _ _ _ => .refl _ _) fun _ hph => by cases hph; trivial
  | @commit i key visible rows _ hi haccepts =>
    refine h.update hmoves ?_ rfl (fun j ph hji hj => .insert h hi haccepts hji hj) hends
    have hready := h.allocation.txns i _ hi
    have hreplay := h.txns i _ hi
    cases key with
    | none => exact h.tables.insert_nil hready.1 hreplay haccepts
    | some key =>
      obtain ⟨c, x, b, run, -, hrows⟩ := hready
      exact h.tables.insert hrows.runs (hreplay run (by simp [hrows.runs])) haccepts
  | @commitReceipt i r hi haccepts =>
    refine h.update hmoves (h.tables.congr (List.Subset.refl _) rfl rfl rfl) rfl
      (fun j ph hji hj => ?_) hends
    refine { KeepsReplays.refl ph.holds w.db with receipts := fun p hp => ?_ }
    exact (Keeps.receipt r : Keeps (some p) w.db _).receipts p rfl
  | @commitReversal i receiptId purchaseOrderId reversal hi =>
    refine h.update hmoves (h.tables.congr (List.Subset.refl _) rfl rfl rfl) rfl
      (fun j ph hji hj => ?_) hends
    have hheld : ph.holds ≠ some purchaseOrderId := fun hheld =>
      hji (Option.some.inj ((h.allocation.locks j ph _ hj hheld).symm.trans (h.allocation.locks i _ _ hi rfl)))
    refine { KeepsReplays.refl ph.holds w.db with receipts := ?_ }
    exact (Keeps.reversal h.allocation.tables.receiptIds (h.allocation.txns i _ hi) hheld).receipts

theorem replayInv_of_steps {acts : List MatchAct} (h : Steps (MatchWorld.next E) .initial acts w) : ReplayInv E w := by
  refine h.invariant (fun s e t hs hn => hs.step (matchMoves_of_next hn))
    ⟨allocationInv_initial E, ⟨?_, ?_⟩, ⟨.nil, .nil, .nil, .nil, ?_, ?_, ?_⟩, fun _ _ hmem => by cases hmem⟩
  all_goals intro _ hmem
  all_goals cases hmem

/-- Every step lets the tables grow. -/
theorem ReplayInv.grows (h : ReplayInv E w) (hstep : MatchMoves E w a w') : Grows w.db w'.db := by
  have hsnoc : ∀ r : GoodsReceipt, Grown w.db.receipts (w.db.receipts ++ [r]) :=
    fun r => ⟨w.db.receipts, [r], rfl, forall₂_later_refl _⟩
  cases hstep with
  | order => exact { Grows.refl w.db with orders := List.subset_append_left _ _ }
  | receipt => exact { Grows.refl w.db with receipts := hsnoc _ }
  | commitReceipt => exact { Grows.refl w.db with receipts := hsnoc _ }
  | @commitReversal i receiptId purchaseOrderId reversal hi =>
    refine { Grows.refl w.db with receipts := ⟨_, [], (List.append_nil _).symm, ?_⟩ }
    obtain ⟨r, hr, hid, hnone⟩ := h.txns i _ hi
    rw [List.forall₂_map_right_iff]
    refine List.forall₂_same.2 fun r' hr' => ?_
    split_ifs with heq
    · have hsame : r' = r :=
        List.inj_on_of_nodup_map h.allocation.tables.receiptIds hr' (List.mem_filter.1 hr).1 (heq.trans hid.symm)
      exact .inr ⟨hsame ▸ hnone, reversal, rfl⟩
    · exact .inl rfl
  | commit =>
    exact { Grows.refl w.db with
      runs := List.prefix_append _ _
      contexts := List.prefix_append _ _
      allocations := List.prefix_append _ _ }
  | _ => exact { Grows.refl w.db with }

theorem grows_of_steps {acts : List MatchAct} (hinv : ReplayInv E w) (h : Steps (MatchWorld.next E) w acts w') :
    Grows w.db w'.db :=
  h.relates (R := fun s t => Grows s.db t.db) (fun _ _ _ hs hn => hs.step (matchMoves_of_next hn))
    (fun _ => .refl _) (fun _ _ _ => .trans) (fun _ _ _ hs hn => hs.grows (matchMoves_of_next hn)) hinv

end

/-- The run is the one a call finds in the tables. -/
structure Answers (E : MatchingEnv) (db : Tables) (c : MatchCall) (x : ExtractionRun) (run : MatchRun) : Prop where
  mem : run ∈ db.runs
  base : run.key.base = (E.key c x none).base
  twoWay : c.mode = .twoWay → run.key = E.key c x none
  threeWay : c.mode = .threeWay → ∃ y ∈ db.contexts, y.matchRunId = run.id ∧
    y.replayFingerprint = (db.contextOf E c).replayFingerprint

section

variable {E : MatchingEnv} {db db' : Tables} {c : MatchCall} {x : ExtractionRun} {run : MatchRun}

theorem contextFor_twoWay (hmode : c.mode = .twoWay) : E.contextFor db c = none := by
  simp [MatchingEnv.contextFor, hmode]

theorem contextFor_threeWay (hmode : c.mode = .threeWay) : E.contextFor db c = some (db.contextOf E c) := by
  simp [MatchingEnv.contextFor, hmode]

theorem base_key (b : Option BuiltContext) : (E.key c x b).base = (E.key c x none).base := rfl

theorem base_of_key {b : Option BuiltContext} (h : run.key = E.key c x b) : run.key.base = (E.key c x none).base := by
  rw [h]
  exact base_key b

theorem findRun_of_answers (hok : ReplaysOk E db) (h : Answers E db c x run) : E.findRun db c x = some run := by
  cases hmode : c.mode with
  | twoWay =>
    simp only [MatchingEnv.findRun, contextFor_twoWay hmode, Option.bind_none, Option.none_or]
    rw [Tables.findExisting, ← h.twoWay hmode]
    exact Lists.find?_key hok.runKeys h.mem
  | threeWay =>
    obtain ⟨y, hy, hid, hfp⟩ := h.threeWay hmode
    simp only [MatchingEnv.findRun, contextFor_threeWay hmode, Option.bind_some]
    cases hprior : db.findPrior (E.key c x (some (db.contextOf E c))) (db.contextOf E c).replayFingerprint with
    | none => exact absurd hfp (noReplay_of_findPrior hprior run h.mem (h.base.trans (base_key _).symm) y hy hid)
    | some run' =>
      obtain ⟨hmem, hbase, y', hy', hid', hfp'⟩ := mem_of_findPrior hprior
      rw [base_key] at hbase
      rw [Option.some_or, hok.unique run' hmem run h.mem (hbase.trans h.base.symm) y' hy' y hy hid' hid
        (hfp'.trans hfp.symm)]

theorem build_fingerprints (receipts : List GoodsReceipt) (allocations : List ThreeWayAllocation) :
    (E.build c receipts allocations).contextFingerprint = fingerprint E.dumps
        (@contextEnvelope E.dumps receipts allocations c.purchaseOrder E.threeWayPolicy c.documentId E.decimals) ∧
      (E.build c receipts allocations).replayFingerprint = fingerprint E.dumps
        (@replayEnvelope E.dumps receipts allocations c.purchaseOrder E.threeWayPolicy c.documentId E.decimals) :=
  ⟨rfl, rfl⟩

/-- Two states with the same view have the same replay fingerprint. -/
theorem replayFingerprint_of_view
    (h : E.view db c.purchaseOrder c.documentId = E.view db' c.purchaseOrder c.documentId) :
    (db.contextOf E c).replayFingerprint = (db'.contextOf E c).replayFingerprint := by
  let _ : DecimalContext := E.decimals
  unfold Tables.contextOf
  rw [(build_fingerprints _ _).2, (build_fingerprints _ _).2, replayEnvelope_of_view h]

/-- The allocations of the invoice itself do not matter. -/
theorem replayFingerprint_congr (hnd : (db.allocations.map (·.id)).Nodup) (hnd' : (db'.allocations.map (·.id)).Nodup)
    (hreceipts : db'.receiptsOf c.purchaseOrder.id = db.receiptsOf c.purchaseOrder.id)
    (hprior : priorAllocations (db'.allocationsOf c.purchaseOrder.id) c.documentId =
      priorAllocations (db.allocationsOf c.purchaseOrder.id) c.documentId) :
    (db'.contextOf E c).replayFingerprint = (db.contextOf E c).replayFingerprint := by
  refine replayFingerprint_of_view ?_
  let _ : DecimalContext := E.decimals
  unfold MatchingEnv.view
  rw [hreceipts]
  exact replayView_congr (hnd'.sublist (List.filter_sublist.map _)) (hnd.sublist (List.filter_sublist.map _)) hprior

theorem answers_of_findRun (hsha : Function.Injective E.dumps.sha256) (hok : ReplaysOk E db)
    (hids : (db.purchaseOrders.map (·.id)).Nodup) (hpo : c.purchaseOrder ∈ db.purchaseOrders)
    (h : E.findRun db c x = some run) : Answers E db c x run := by
  cases hmode : c.mode with
  | twoWay =>
    simp only [MatchingEnv.findRun, contextFor_twoWay hmode, Option.bind_none, Option.none_or] at h
    obtain ⟨hmem, hkey⟩ := mem_of_findExisting h
    refine ⟨hmem, base_of_key hkey, fun _ => hkey, fun hthree => ?_⟩
    rw [hmode] at hthree
    cases hthree
  | threeWay =>
    have htwo : c.mode = .twoWay → run.key = E.key c x none := by
      intro htwo
      rw [hmode] at htwo
      cases htwo
    simp only [MatchingEnv.findRun, contextFor_threeWay hmode, Option.bind_some] at h
    cases hprior : db.findPrior (E.key c x (some (db.contextOf E c))) (db.contextOf E c).replayFingerprint with
    | some run' =>
      rw [hprior, Option.some_or] at h
      obtain rfl := Option.some.inj h
      obtain ⟨hmem, hbase, hcontext⟩ := mem_of_findPrior hprior
      exact ⟨hmem, hbase.trans (base_key _), htwo, fun _ => hcontext⟩
    | none =>
      rw [hprior, Option.none_or] at h
      obtain ⟨hmem, hkey⟩ := mem_of_findExisting h
      refine ⟨hmem, base_of_key hkey, htwo, fun _ => ?_⟩
      have hthree : run.matchingMode = .threeWay := (congrArg MatchKey.matchingMode hkey).trans hmode
      obtain ⟨y, hy, hcontext⟩ := hok.contexts run hmem hthree
      refine ⟨y, hy, hcontext.matchRunId, ?_⟩
      obtain ⟨-, po, hpo', hid, receipts, allocations, rfl, hfp⟩ := hcontext
      obtain rfl : po = c.purchaseOrder := List.inj_on_of_nodup_map hids hpo' hpo
        (hid.trans (congrArg MatchKey.purchaseOrderId hkey))
      obtain hdocument : run.documentId = c.documentId := congrArg MatchKey.documentId hkey
      have hcontextFp : run.matchingContextFingerprint = (db.contextOf E c).contextFingerprint :=
        congrArg MatchKey.matchingContextFingerprint hkey
      let _ : DecimalContext := E.decimals
      rw [hcontextFp, hdocument] at hfp
      rw [hdocument]
      simp only [contextRow, Tables.contextOf, build_fingerprints] at hfp ⊢
      rw [replayEnvelope_of_view (view_of_context (same_of_fingerprint hsha hfp))]

end

end InvoiceOps
