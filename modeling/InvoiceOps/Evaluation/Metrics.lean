import InvoiceOps.Evaluation.Alignment

/-! Counts of the evaluation over line items (`evaluation/metrics.py`). Every field of every line of the ground truth
and of the predictions is counted once, and the fields counted as right are as many as any order-preserving pairing
of the lines can have. -/

namespace InvoiceOps

namespace Evaluation

variable {U : Unicode}

inductive LineField
  | description
  | quantity
  | unitPrice
  | lineTotal
deriving DecidableEq, Repr

/-- `LINE_FIELDS` -/
def lineFields : List LineField := [.description, .quantity, .unitPrice, .lineTotal]

/-- The canonical value of a field of the ground truth. -/
def truthValue (U : Unicode) (truth : GroundTruthLineItem) : LineField → Option String
  | .description => truth.description.map (normalizeDescription U)
  | .quantity => truth.quantity.map canonicalDecimal
  | .unitPrice => truth.unitPrice.map canonicalDecimal
  | .lineTotal => truth.lineTotal.map canonicalDecimal

/-- The canonical value of `predicted_line_value`. -/
def predictedLineValue (U : Unicode) (line : InvoiceLine) : LineField → Option String
  | .description => line.description.extractedValue.map (normalizeDescription U)
  | .quantity => line.quantity.extractedValue.map canonicalDecimal
  | .unitPrice => line.unitPrice.extractedValue.map canonicalDecimal
  | .lineTotal => line.lineTotal.extractedValue.map canonicalDecimal

structure FieldCounts where
  tp : ℕ
  fp : ℕ
  fn : ℕ
  labeled : ℕ
deriving DecidableEq, Repr

/-- Both values are there and equal. -/
def isRight (truth predicted : Option String) : Bool := truth.isSome && predicted.isSome && truth == predicted

namespace FieldCounts

/-- What a line of the ground truth adds, given the value predicted for it. -/
def addTruth (c : FieldCounts) (truth predicted : Option String) : FieldCounts :=
  let c := if truth.isSome then { c with labeled := c.labeled + 1 } else c
  if isRight truth predicted then { c with tp := c.tp + 1 }
  else
    let c := if truth.isSome then { c with fn := c.fn + 1 } else c
    if predicted.isSome then { c with fp := c.fp + 1 } else c

/-- What a prediction without a pair adds. -/
def addPrediction (c : FieldCounts) (predicted : Option String) : FieldCounts :=
  if predicted.isSome then { c with fp := c.fp + 1 } else c

end FieldCounts

structure EvaluationResult where
  groundTruth : List GroundTruthLineItem
  invoice : Option (List InvoiceLine)

namespace EvaluationResult

def predictedLines (result : EvaluationResult) : List InvoiceLine := result.invoice.getD []

def pairs (U : Unicode) (result : EvaluationResult) : List AlignedLineItem :=
  alignLineItems U result.groundTruth result.predictedLines

/-- `pair_by_truth.get` -/
def pairByTruth (U : Unicode) (result : EvaluationResult) (index : ℕ) : Option AlignedLineItem :=
  (result.pairs U).reverse.find? (·.groundTruthIndex = index)

def pairedPredictions (U : Unicode) (result : EvaluationResult) : List ℕ :=
  (result.pairs U).map AlignedLineItem.predictionIndex

def predictedAt (U : Unicode) (result : EvaluationResult) (field : LineField) (index : ℕ) : Option String :=
  result.predictedLines[index]?.bind fun line => predictedLineValue U line field

/-- The value predicted for a line of the ground truth: none without a pair. -/
def pairedValue (U : Unicode) (result : EvaluationResult) (index : ℕ) (field : LineField) : Option String :=
  (result.pairByTruth U index).bind fun pair => result.predictedAt U field pair.predictionIndex

end EvaluationResult

structure LineMetrics where
  exactTp : ℕ
  truthItems : ℕ
  predictedItems : ℕ
  fieldCounts : LineField → FieldCounts

namespace LineMetrics

def empty : LineMetrics := ⟨0, 0, 0, fun _ => ⟨0, 0, 0, 0⟩⟩

def addTruthLine (U : Unicode) (result : EvaluationResult) (counts : LineField → FieldCounts)
    (line : GroundTruthLineItem × ℕ) : LineField → FieldCounts :=
  fun field => (counts field).addTruth (truthValue U line.1 field) (result.pairedValue U line.2 field)

def addPredictedLine (U : Unicode) (result : EvaluationResult) (counts : LineField → FieldCounts)
    (line : InvoiceLine × ℕ) : LineField → FieldCounts :=
  if line.2 ∈ result.pairedPredictions U then counts
  else fun field => (counts field).addPrediction (predictedLineValue U line.1 field)

def addResult (U : Unicode) (m : LineMetrics) (result : EvaluationResult) : LineMetrics where
  exactTp := m.exactTp + (result.pairs U).countP (·.exact)
  truthItems := m.truthItems + result.groundTruth.length
  predictedItems := m.predictedItems + result.predictedLines.length
  fieldCounts := result.predictedLines.zipIdx.foldl (addPredictedLine U result)
    (result.groundTruth.zipIdx.foldl (addTruthLine U result) m.fieldCounts)

def totalTp (m : LineMetrics) : ℕ := (lineFields.map fun field => (m.fieldCounts field).tp).sum

end LineMetrics

/-- The line items of `calculate_metrics`. -/
def calculateMetrics (U : Unicode) (results : List EvaluationResult) : LineMetrics :=
  results.foldl (LineMetrics.addResult U) LineMetrics.empty

theorem canonicalTruth_eq (U : Unicode) (truth : GroundTruthLineItem) :
    canonicalTruth U truth = lineFields.map (truthValue U truth) := rfl

theorem canonicalPrediction_eq (U : Unicode) (line : InvoiceLine) :
    canonicalPrediction U line = lineFields.map (predictedLineValue U line) := rfl

theorem isRight_eq (truth predicted : Option String) : isRight truth predicted = (truth.isSome && truth == predicted) := by
  cases truth with
  | none => rfl
  | some t => cases predicted <;> rfl

/-- The score of a pair is the number of its fields that are right. -/
theorem lineItemPairScore_eq (U : Unicode) (truth : GroundTruthLineItem) (line : InvoiceLine) :
    lineItemPairScore U truth line =
      (lineFields.map fun field => (isRight (truthValue U truth field) (predictedLineValue U line field)).toNat).sum := by
  simp only [isRight_eq]
  rw [lineItemPairScore, canonicalTruth_eq, canonicalPrediction_eq, List.zip_map', List.countP_map]
  induction lineFields with
  | nil => rfl
  | cons field fields ih =>
    rw [List.countP_cons, ih, List.map_cons, List.sum_cons, Nat.add_comm]
    congr 1
    rw [Function.comp_apply]
    cases (truthValue U truth field).isSome && truthValue U truth field == predictedLineValue U line field <;> rfl

namespace FieldCounts
variable {c : FieldCounts} {truth predicted : Option String}

theorem isSome_of_isRight (h : isRight truth predicted) : truth.isSome ∧ predicted.isSome := by
  simp only [isRight, Bool.and_eq_true] at h
  exact h.1

theorem tp_addTruth : (c.addTruth truth predicted).tp = c.tp + (isRight truth predicted).toNat := by
  unfold addTruth
  cases isRight truth predicted <;> cases truth.isSome <;> cases predicted.isSome <;> rfl

theorem labeled_addTruth : (c.addTruth truth predicted).labeled = c.labeled + truth.isSome.toNat := by
  unfold addTruth
  cases isRight truth predicted <;> cases truth.isSome <;> cases predicted.isSome <;> rfl

/-- A line of the ground truth is right or missed where it has a value. -/
theorem recall_addTruth : (c.addTruth truth predicted).tp + (c.addTruth truth predicted).fn =
    c.tp + c.fn + truth.isSome.toNat := by
  unfold addTruth
  cases hright : isRight truth predicted with
  | false => cases truth.isSome <;> cases predicted.isSome <;> simp <;> omega
  | true =>
    obtain ⟨htruth, -⟩ := isSome_of_isRight hright
    simp only [htruth, if_true, Bool.toNat_true]
    omega

/-- A prediction is right or wrong where it has a value. -/
theorem precision_addTruth : (c.addTruth truth predicted).tp + (c.addTruth truth predicted).fp =
    c.tp + c.fp + predicted.isSome.toNat := by
  unfold addTruth
  cases hright : isRight truth predicted with
  | false => cases truth.isSome <;> cases predicted.isSome <;> simp <;> omega
  | true =>
    obtain ⟨htruth, hpredicted⟩ := isSome_of_isRight hright
    simp only [htruth, hpredicted, if_true, Bool.toNat_true]
    omega

theorem addPrediction_eq : c.addPrediction predicted = { c with fp := c.fp + predicted.isSome.toNat } := by
  unfold addPrediction
  cases predicted.isSome <;> rfl

end FieldCounts

theorem sum_zipIdx_isSome {α : Type} (value : α → Option String) (xs : List α) :
    (xs.zipIdx.map fun x => (value x.1).isSome.toNat).sum = xs.countP fun x => (value x).isSome := by
  have hfst : (xs.zipIdx.map fun x => (value x.1).isSome.toNat) = xs.map fun x => (value x).isSome.toNat := by
    rw [← List.zipIdx_map_fst 0 xs, List.map_map, List.zipIdx_map_fst]
    rfl
  rw [hfst]
  clear hfst
  induction xs with
  | nil => rfl
  | cons x xs ih =>
    rw [List.map_cons, List.sum_cons, ih, List.countP_cons, Nat.add_comm]
    cases (value x).isSome <;> rfl

namespace OrderPreserving
variable {groundTruth : List GroundTruthLineItem} {predictions : List InvoiceLine} {pairs : List AlignedLineItem}

theorem nodup_truth (h : OrderPreserving U groundTruth predictions pairs) :
    (pairs.map AlignedLineItem.groundTruthIndex).Nodup :=
  List.pairwise_map.2 (h.increasing.imp fun hlt => hlt.1.ne)

theorem nodup_prediction (h : OrderPreserving U groundTruth predictions pairs) :
    (pairs.map AlignedLineItem.predictionIndex).Nodup :=
  List.pairwise_map.2 (h.increasing.imp fun hlt => hlt.2.ne)

theorem truth_mem (h : OrderPreserving U groundTruth predictions pairs) :
    ∀ p ∈ pairs, p.groundTruthIndex ∈ groundTruth.zipIdx.map Prod.snd := by
  intro p hp
  obtain ⟨truth, prediction, htruth, -, -, -⟩ := (h.scored p hp).lines
  rw [List.zipIdx_map_snd, List.mem_range'_1]
  have := (List.getElem?_eq_some_iff.1 htruth).1
  omega

theorem prediction_mem (h : OrderPreserving U groundTruth predictions pairs) :
    ∀ p ∈ pairs, p.predictionIndex ∈ predictions.zipIdx.map Prod.snd := by
  intro p hp
  obtain ⟨truth, prediction, -, hprediction, -, -⟩ := (h.scored p hp).lines
  rw [List.zipIdx_map_snd, List.mem_range'_1]
  have := (List.getElem?_eq_some_iff.1 hprediction).1
  omega

theorem length_le_truth (h : OrderPreserving U groundTruth predictions pairs) :
    pairs.length ≤ groundTruth.length := by
  have hle := (List.subperm_of_subset h.nodup_truth (List.forall_mem_map.2 h.truth_mem)).length_le
  rwa [List.length_map, List.length_map, List.length_zipIdx] at hle

theorem length_le_prediction (h : OrderPreserving U groundTruth predictions pairs) :
    pairs.length ≤ predictions.length := by
  have hle := (List.subperm_of_subset h.nodup_prediction (List.forall_mem_map.2 h.prediction_mem)).length_le
  rwa [List.length_map, List.length_map, List.length_zipIdx] at hle

end OrderPreserving

theorem nodup_positions {α : Type} (xs : List α) : (xs.zipIdx.map Prod.snd).Nodup := by
  rw [List.zipIdx_map_snd]
  exact List.nodup_range'

/-- How many fields the pairs of an alignment have right. -/
def alignmentScore (pairs : List AlignedLineItem) : ℕ := (pairs.map AlignedLineItem.score).sum

namespace EvaluationResult
variable (U) (result : EvaluationResult)

theorem orderPreserving_pairs : OrderPreserving U result.groundTruth result.predictedLines (result.pairs U) :=
  within_iff.1 (bestCell_final U _ _).best.within

/-- No pairing of the lines in order has more fields right. -/
theorem alignmentScore_le {other : List AlignedLineItem}
    (h : OrderPreserving U result.groundTruth result.predictedLines other) :
    alignmentScore other ≤ alignmentScore (result.pairs U) := by
  have hle := (bestCell_final U result.groundTruth result.predictedLines).best.maximal other (within_iff.2 h)
  rw [← alignmentRank_eq, ← alignmentRank_eq] at hle
  exact Prod.Lex.monotone_fst _ _ hle

variable {U result}

theorem pairByTruth_eq_some {index : ℕ} {pair : AlignedLineItem} (h : result.pairByTruth U index = some pair) :
    pair ∈ result.pairs U ∧ pair.groundTruthIndex = index :=
  ⟨List.mem_reverse.1 (List.mem_of_find?_eq_some h), by simpa using List.find?_some h⟩

/-- The fields of a line that are right are those its pair scores. -/
theorem right_fields {line : GroundTruthLineItem × ℕ} (hline : line ∈ result.groundTruth.zipIdx) :
    (lineFields.map fun field => (isRight (truthValue U line.1 field) (result.pairedValue U line.2 field)).toNat).sum =
      ((result.pairByTruth U line.2).map AlignedLineItem.score).getD 0 := by
  cases hpair : result.pairByTruth U line.2 with
  | none =>
    have hnone : ∀ field, result.pairedValue U line.2 field = none := fun field => by rw [pairedValue, hpair]; rfl
    simp [hnone, isRight]
  | some pair =>
    obtain ⟨hmem, hindex⟩ := pairByTruth_eq_some hpair
    obtain ⟨truth, prediction, htruth, hprediction, hscore, -⟩ :=
      ((orderPreserving_pairs U result).scored pair hmem).lines
    have hvalue : ∀ field, result.pairedValue U line.2 field = predictedLineValue U prediction field := by
      intro field
      rw [pairedValue, hpair, Option.bind_some, predictedAt, hprediction, Option.bind_some]
    have hline := List.mem_zipIdx_iff_getElem?.1 hline
    rw [hindex, hline] at htruth
    obtain rfl := Option.some.inj htruth
    simp only [hvalue]
    rw [← lineItemPairScore_eq, ← hscore]
    rfl

theorem pairedValue_isSome (index : ℕ) (field : LineField) :
    (result.pairedValue U index field).isSome.toNat = ((result.pairByTruth U index).map fun pair =>
      (result.predictedAt U field pair.predictionIndex).isSome.toNat).getD 0 := by
  rw [pairedValue]
  cases result.pairByTruth U index <;> rfl

end EvaluationResult

namespace LineMetrics
variable {results : List EvaluationResult} {m : LineMetrics} {result : EvaluationResult}

/-- The counts over some results: each value of the ground truth is right or missed, each predicted value right or
wrong, and the right ones are what the alignments score. -/
structure Counts (U : Unicode) (results : List EvaluationResult) (m : LineMetrics) : Prop where
  labeled : ∀ field, (m.fieldCounts field).labeled =
    (results.flatMap (·.groundTruth)).countP fun line => (truthValue U line field).isSome
  truth : ∀ field, (m.fieldCounts field).tp + (m.fieldCounts field).fn = (m.fieldCounts field).labeled
  predicted : ∀ field, (m.fieldCounts field).tp + (m.fieldCounts field).fp =
    (results.flatMap (·.predictedLines)).countP fun line => (predictedLineValue U line field).isSome
  right : m.totalTp = (results.map fun result => alignmentScore (result.pairs U)).sum
  exactTp_le_truth : m.exactTp ≤ m.truthItems
  exactTp_le_predicted : m.exactTp ≤ m.predictedItems

theorem addPredictedLine_apply (counts : LineField → FieldCounts) (line : InvoiceLine × ℕ) (field : LineField) :
    addPredictedLine U result counts line field = { counts field with
      fp := (counts field).fp + if line.2 ∈ result.pairedPredictions U then 0
        else (predictedLineValue U line.1 field).isSome.toNat } := by
  unfold addPredictedLine
  split_ifs with hpaired
  · rfl
  · exact FieldCounts.addPrediction_eq

/-- The loop over the predictions changes only what is wrong. -/
theorem predicted_foldl (counts : LineField → FieldCounts) (lines : List (InvoiceLine × ℕ)) (field : LineField) :
    lines.foldl (addPredictedLine U result) counts field = { counts field with
      fp := (counts field).fp + (lines.map fun line => if line.2 ∈ result.pairedPredictions U then 0
        else (predictedLineValue U line.1 field).isSome.toNat).sum } := by
  induction lines generalizing counts with
  | nil => rfl
  | cons line lines ih =>
    rw [List.foldl_cons, ih, addPredictedLine_apply, List.map_cons, List.sum_cons, Nat.add_assoc]

/-- The counts of a field after a result: those of the loop over the ground truth, and what is predicted elsewhere. -/
theorem fieldCounts_addResult (m : LineMetrics) (result : EvaluationResult) (field : LineField) :
    (m.addResult U result).fieldCounts field =
      let counts := result.groundTruth.zipIdx.foldl (addTruthLine U result) m.fieldCounts field
      { counts with
        fp := counts.fp + (result.predictedLines.zipIdx.map fun line =>
          if line.2 ∈ result.pairedPredictions U then 0 else (predictedLineValue U line.1 field).isSome.toNat).sum } :=
  predicted_foldl _ _ _

theorem labeled_addResult (field : LineField) :
    ((m.addResult U result).fieldCounts field).labeled = (m.fieldCounts field).labeled +
      result.groundTruth.countP fun line => (truthValue U line field).isSome := by
  rw [fieldCounts_addResult, ← sum_zipIdx_isSome fun line => truthValue U line field]
  exact OrderAlignment.count_foldl (fun counts : LineField → FieldCounts => (counts field).labeled)
    (fun _ _ => FieldCounts.labeled_addTruth) _ _

theorem recall_addResult (field : LineField) :
    ((m.addResult U result).fieldCounts field).tp + ((m.addResult U result).fieldCounts field).fn =
      (m.fieldCounts field).tp + (m.fieldCounts field).fn +
        result.groundTruth.countP fun line => (truthValue U line field).isSome := by
  rw [fieldCounts_addResult, ← sum_zipIdx_isSome fun line => truthValue U line field]
  exact OrderAlignment.count_foldl (fun counts : LineField → FieldCounts => (counts field).tp + (counts field).fn)
    (fun _ _ => FieldCounts.recall_addTruth) _ _

/-- What the loop over the ground truth counts as predicted is what the pairs predict. -/
theorem precision_foldl (U : Unicode) (result : EvaluationResult) (counts : LineField → FieldCounts)
    (field : LineField) :
    (result.groundTruth.zipIdx.foldl (addTruthLine U result) counts field).tp +
      (result.groundTruth.zipIdx.foldl (addTruthLine U result) counts field).fp =
      (counts field).tp + (counts field).fp +
        ((result.pairs U).map fun pair => (result.predictedAt U field pair.predictionIndex).isSome.toNat).sum := by
  have hpairs := result.orderPreserving_pairs U
  have hlookups := OrderAlignment.sum_lookups (nodup_positions result.groundTruth) hpairs.nodup_truth hpairs.truth_mem
    fun pair => (result.predictedAt U field pair.predictionIndex).isSome.toNat
  rw [← hlookups, List.map_map]
  refine OrderAlignment.count_foldl (fun counts : LineField → FieldCounts => (counts field).tp + (counts field).fp)
    (fun _ line => ?_) _ _
  rw [Function.comp_apply, ← EvaluationResult.pairByTruth, ← EvaluationResult.pairedValue_isSome]
  exact FieldCounts.precision_addTruth

/-- A prediction is counted with the line it is paired with, or else on its own. -/
theorem precision_addResult (field : LineField) :
    ((m.addResult U result).fieldCounts field).tp + ((m.addResult U result).fieldCounts field).fp =
      (m.fieldCounts field).tp + (m.fieldCounts field).fp +
        result.predictedLines.countP fun line => (predictedLineValue U line field).isSome := by
  have hpairs := result.orderPreserving_pairs U
  have hvalue : ∀ line ∈ result.predictedLines.zipIdx,
      predictedLineValue U line.1 field = result.predictedAt U field line.2 := by
    intro line hline
    rw [EvaluationResult.predictedAt, List.mem_zipIdx_iff_getElem?.1 hline, Option.bind_some]
  have hall : ((result.pairs U).map fun pair => (result.predictedAt U field pair.predictionIndex).isSome.toNat).sum +
      (result.predictedLines.zipIdx.map fun line => if line.2 ∈ result.pairedPredictions U then 0
        else (result.predictedAt U field line.2).isSome.toNat).sum =
      (result.predictedLines.zipIdx.map fun line => (result.predictedAt U field line.2).isSome.toNat).sum := by
    have hsum := OrderAlignment.sum_paired_add_unpaired (nodup_positions result.predictedLines)
      hpairs.nodup_prediction hpairs.prediction_mem fun index => (result.predictedAt U field index).isSome.toNat
    rw [List.map_map, List.map_map] at hsum
    exact hsum
  have halone : (result.predictedLines.zipIdx.map fun line =>
      if line.2 ∈ result.pairedPredictions U then 0 else (predictedLineValue U line.1 field).isSome.toNat) =
      result.predictedLines.zipIdx.map fun line =>
        if line.2 ∈ result.pairedPredictions U then 0 else (result.predictedAt U field line.2).isSome.toNat :=
    List.map_congr_left fun line hline => by rw [hvalue line hline]
  have hcount : (result.predictedLines.zipIdx.map fun line => (result.predictedAt U field line.2).isSome.toNat).sum =
      result.predictedLines.countP fun line => (predictedLineValue U line field).isSome := by
    rw [← sum_zipIdx_isSome fun line => predictedLineValue U line field]
    exact congrArg List.sum (List.map_congr_left fun line hline => by rw [hvalue line hline])
  rw [fieldCounts_addResult, halone, ← hcount]
  have htruth := precision_foldl U result m.fieldCounts field
  dsimp only
  omega

/-- A line of the ground truth adds its fields that are right, over all fields. -/
theorem tp_addTruthLine (U : Unicode) (result : EvaluationResult) (counts : LineField → FieldCounts)
    (line : GroundTruthLineItem × ℕ) :
    (lineFields.map fun field => (addTruthLine U result counts line field).tp).sum =
      (lineFields.map fun field => (counts field).tp).sum + (lineFields.map fun field =>
        (isRight (truthValue U line.1 field) (result.pairedValue U line.2 field)).toNat).sum := by
  simp only [addTruthLine, FieldCounts.tp_addTruth, List.sum_map_add]

theorem totalTp_addResult :
    (m.addResult U result).totalTp = m.totalTp + alignmentScore (result.pairs U) := by
  have hpairs := result.orderPreserving_pairs U
  have hfields : (m.addResult U result).totalTp = (lineFields.map fun field =>
      (result.groundTruth.zipIdx.foldl (addTruthLine U result) m.fieldCounts field).tp).sum := by
    unfold totalTp
    simp only [fieldCounts_addResult]
  have hloop := OrderAlignment.count_foldl
    (fun counts : LineField → FieldCounts => (lineFields.map fun field => (counts field).tp).sum)
    (tp_addTruthLine U result) m.fieldCounts result.groundTruth.zipIdx
  have hright : (result.groundTruth.zipIdx.map fun line => (lineFields.map fun field =>
      (isRight (truthValue U line.1 field) (result.pairedValue U line.2 field)).toNat).sum) =
      (result.groundTruth.zipIdx.map Prod.snd).map fun index =>
        ((result.pairByTruth U index).map AlignedLineItem.score).getD 0 := by
    rw [List.map_map]
    exact List.map_congr_left fun line hline => EvaluationResult.right_fields hline
  rw [hfields, hloop, hright]
  exact congrArg _ (OrderAlignment.sum_lookups (nodup_positions result.groundTruth) hpairs.nodup_truth
    hpairs.truth_mem AlignedLineItem.score)

theorem Counts.empty : Counts U [] LineMetrics.empty where
  labeled _ := rfl
  truth _ := rfl
  predicted _ := rfl
  right := rfl
  exactTp_le_truth := le_rfl
  exactTp_le_predicted := le_rfl

theorem Counts.add (h : Counts U results m) (result : EvaluationResult) :
    Counts U (results ++ [result]) (m.addResult U result) where
  labeled field := by
    rw [labeled_addResult, h.labeled, List.flatMap_append, List.countP_append, List.flatMap_singleton]
  truth field := by
    rw [recall_addResult, labeled_addResult, h.truth]
  predicted field := by
    rw [precision_addResult, h.predicted, List.flatMap_append, List.countP_append, List.flatMap_singleton]
  right := by
    rw [totalTp_addResult, h.right, List.map_append, List.sum_append, List.map_singleton, List.sum_singleton]
  exactTp_le_truth := Nat.add_le_add h.exactTp_le_truth
    (List.countP_le_length.trans (result.orderPreserving_pairs U).length_le_truth)
  exactTp_le_predicted := Nat.add_le_add h.exactTp_le_predicted
    (List.countP_le_length.trans (result.orderPreserving_pairs U).length_le_prediction)

theorem counts_foldl (results : List EvaluationResult) :
    Counts U results (results.foldl (addResult U) LineMetrics.empty) := by
  induction results using List.reverseRecOn with
  | nil => exact Counts.empty
  | append_singleton results result ih =>
    rw [List.foldl_append]
    exact ih.add result

end LineMetrics

/-- Over any results, each value of the ground truth in a field is right or missed and each predicted value right or
wrong, once. The values that are right are as many as the best pairing of the lines in order has, and exact lines no
more than the lines of either side. -/
theorem calculateMetrics_counts (U : Unicode) (results : List EvaluationResult) :
    let m := calculateMetrics U results
    (∀ field, (m.fieldCounts field).tp + (m.fieldCounts field).fn = (m.fieldCounts field).labeled ∧
      (m.fieldCounts field).labeled =
        (results.flatMap (·.groundTruth)).countP (fun line => (truthValue U line field).isSome) ∧
      (m.fieldCounts field).tp + (m.fieldCounts field).fp =
        (results.flatMap (·.predictedLines)).countP fun line => (predictedLineValue U line field).isSome) ∧
    m.exactTp ≤ m.truthItems ∧ m.exactTp ≤ m.predictedItems ∧
    IsGreatest {total | ∃ alignments, List.Forall₂ (fun result pairs =>
      OrderPreserving U result.groundTruth result.predictedLines pairs) results alignments ∧
      total = (alignments.map alignmentScore).sum} m.totalTp := by
  have h : LineMetrics.Counts U results (calculateMetrics U results) := LineMetrics.counts_foldl results
  refine ⟨fun field => ⟨h.truth field, h.labeled field, h.predicted field⟩, h.exactTp_le_truth,
    h.exactTp_le_predicted, ?_, ?_⟩
  · refine ⟨results.map (·.pairs U), ?_, ?_⟩
    · exact List.forall₂_map_right_iff.2 (List.forall₂_same.2 fun result _ => result.orderPreserving_pairs U)
    · rw [h.right, List.map_map]
      rfl
  · rintro _ ⟨alignments, halignments, rfl⟩
    rw [h.right]
    clear h
    induction halignments with
    | nil => exact le_rfl
    | cons hpairs _ ih =>
      rw [List.map_cons, List.sum_cons, List.map_cons, List.sum_cons]
      exact Nat.add_le_add (EvaluationResult.alignmentScore_le U _ hpairs) ih

end Evaluation

end InvoiceOps
