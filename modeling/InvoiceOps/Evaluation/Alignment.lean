import InvoiceOps.Lib.Alignment
import InvoiceOps.Extraction.Normalization
import Mathlib.Algebra.Order.Monoid.Prod
import Mathlib.Data.List.DropRight
import Mathlib.Data.Prod.Lex

/-! Alignment of predicted lines with the lines of the ground truth (`evaluation/matching.py`,
`evaluation/normalization.py`). A pair scores one for each field whose canonical values agree. The dynamic program
returns an order-preserving alignment whose score, exact pairs and length are lexicographically maximal. -/

namespace InvoiceOps

namespace Evaluation

variable {U : Unicode}

/-- `Decimal.normalize` in a context of 28 digits. -/
def normalize (d : Decimal) : Decimal :=
  let r := d.roundHalfEven 28
  if r.coeff = 0 then ⟨r.neg, 0, 0⟩
  else
    let digits := Nat.toDigits 10 r.coeff
    let kept := digits.rdropWhile (· == '0')
    ⟨r.neg, Nat.ofDigitChars 10 kept 0, r.exp + (digits.length - kept.length : ℕ)⟩

/-- `[a-z0-9]` -/
def isPlain (c : Char) : Bool := ('a' ≤ c && c ≤ 'z') || c.isDigit

def normalizeDescription (U : Unicode) (value : String) : String :=
  String.ofList (Text.stripBy Text.isSpace
    (blankRuns isPlain false (U.casefold (normalizeWhitespace value)).toList))

def canonicalDecimal (value : Decimal) : String := (normalize value).text

structure GroundTruthLineItem where
  description : Option String
  quantity : Option Decimal
  unitPrice : Option Decimal
  lineTotal : Option Decimal
deriving DecidableEq, Repr

/-- The canonical values of description, quantity, unit price and line total. -/
def canonicalTruth (U : Unicode) (truth : GroundTruthLineItem) : List (Option String) :=
  [truth.description.map (normalizeDescription U), truth.quantity.map canonicalDecimal,
    truth.unitPrice.map canonicalDecimal, truth.lineTotal.map canonicalDecimal]

def canonicalPrediction (U : Unicode) (line : InvoiceLine) : List (Option String) :=
  [line.description.extractedValue.map (normalizeDescription U), line.quantity.extractedValue.map canonicalDecimal,
    line.unitPrice.extractedValue.map canonicalDecimal, line.lineTotal.extractedValue.map canonicalDecimal]

def lineItemPairScore (U : Unicode) (truth : GroundTruthLineItem) (prediction : InvoiceLine) : ℕ :=
  ((canonicalTruth U truth).zip (canonicalPrediction U prediction)).countP fun v => v.1.isSome && v.1 == v.2

def isExactLineItem (U : Unicode) (truth : GroundTruthLineItem) (prediction : InvoiceLine) : Bool :=
  canonicalTruth U truth == canonicalPrediction U prediction

structure AlignedLineItem where
  groundTruthIndex : ℕ
  predictionIndex : ℕ
  score : ℕ
  exact : Bool
deriving DecidableEq, Repr

/-- What a pair adds to the rank of an alignment. -/
def AlignedLineItem.rank (p : AlignedLineItem) : ℕ ×ₗ ℕ ×ₗ ℕ := toLex (p.score, toLex (p.exact.toNat, 1))

/-- `_State` -/
structure AlignmentState where
  score : ℕ
  exactCount : ℕ
  pairCount : ℕ
  pairs : List AlignedLineItem
deriving DecidableEq, Repr

namespace AlignmentState

def empty : AlignmentState := ⟨0, 0, 0, []⟩

def rank (s : AlignmentState) : ℕ ×ₗ ℕ ×ₗ ℕ := toLex (s.score, toLex (s.exactCount, s.pairCount))

def add (s : AlignmentState) (p : AlignedLineItem) : AlignmentState :=
  ⟨s.score + p.score, s.exactCount + p.exact.toNat, s.pairCount + 1, s.pairs ++ [p]⟩

/-- `max` by rank: the first of two that are equal. -/
def larger (a b : AlignmentState) : AlignmentState := if a.rank < b.rank then b else a

end AlignmentState

open AlignmentState in
/-- One cell of the table, for a line of the ground truth and a prediction with their indices. -/
def alignCell (U : Unicode) (truth : GroundTruthLineItem × ℕ) (prediction : InvoiceLine × ℕ)
    (left up diagonal : AlignmentState) : AlignmentState :=
  let score := lineItemPairScore U truth.1 prediction.1
  if 0 < score then
    let pair : AlignedLineItem := ⟨truth.2, prediction.2, score, isExactLineItem U truth.1 prediction.1⟩
    larger (larger up left) (diagonal.add pair)
  else larger up left

def alignLineItems (U : Unicode) (groundTruth : List GroundTruthLineItem) (predictions : List InvoiceLine) :
    List AlignedLineItem :=
  (OrderAlignment.final (alignCell U) AlignmentState.empty groundTruth.zipIdx predictions.zipIdx).pairs

/-- A pair of two lines with a positive score. -/
structure Scored (U : Unicode) (groundTruth : List GroundTruthLineItem) (predictions : List InvoiceLine)
    (p : AlignedLineItem) : Prop where
  lines : ∃ truth prediction, groundTruth[p.groundTruthIndex]? = some truth ∧
    predictions[p.predictionIndex]? = some prediction ∧ p.score = lineItemPairScore U truth prediction ∧
    p.exact = isExactLineItem U truth prediction
  positive : 0 < p.score

structure OrderPreserving (U : Unicode) (groundTruth : List GroundTruthLineItem) (predictions : List InvoiceLine)
    (pairs : List AlignedLineItem) : Prop where
  increasing : pairs.Pairwise fun p q =>
    p.groundTruthIndex < q.groundTruthIndex ∧ p.predictionIndex < q.predictionIndex
  scored : ∀ p ∈ pairs, Scored U groundTruth predictions p

/-- The total score, the number of exact pairs and the number of pairs, compared in this order. -/
def alignmentRank (pairs : List AlignedLineItem) : ℕ ×ₗ ℕ ×ₗ ℕ :=
  toLex ((pairs.map (·.score)).sum, toLex (pairs.countP (·.exact), pairs.length))

section
variable {groundTruth : List GroundTruthLineItem} {predictions : List InvoiceLine}

theorem alignmentRank_eq (pairs : List AlignedLineItem) :
    alignmentRank pairs = OrderAlignment.total AlignedLineItem.rank pairs := by
  induction pairs with
  | nil => rfl
  | cons p pairs ih =>
    have hcons : OrderAlignment.total AlignedLineItem.rank (p :: pairs) = p.rank + alignmentRank pairs := by
      rw [ih, OrderAlignment.total, List.map_cons, List.sum_cons, OrderAlignment.total]
    rw [hcons, alignmentRank, alignmentRank, AlignedLineItem.rank, ← toLex_add, Prod.mk_add_mk, ← toLex_add,
      Prod.mk_add_mk, List.map_cons, List.sum_cons, List.countP_cons, List.length_cons]
    cases p.exact
    · simp [add_comm]
    · simp [add_comm]

namespace AlignmentState

/-- The counts of a state are those of its pairs. -/
def Counts (s : AlignmentState) : Prop := s.rank = OrderAlignment.total AlignedLineItem.rank s.pairs

theorem Counts.add {s : AlignmentState} (h : s.Counts) (p : AlignedLineItem) : (s.add p).Counts := by
  have hrank : (s.add p).rank = s.rank + p.rank := rfl
  rw [Counts, hrank, h, AlignmentState.add, OrderAlignment.total_snoc]

theorem larger_eq (a b : AlignmentState) : larger a b = a ∨ larger a b = b := by
  unfold larger
  split_ifs
  · exact Or.inr rfl
  · exact Or.inl rfl

theorem le_larger_left (a b : AlignmentState) : a.rank ≤ (larger a b).rank := by
  unfold larger
  split_ifs with h
  · exact h.le
  · exact le_rfl

theorem le_larger_right (a b : AlignmentState) : b.rank ≤ (larger a b).rank := by
  unfold larger
  split_ifs with h
  · exact le_rfl
  · exact not_lt.1 h

end AlignmentState

/-- What the table keeps of a cell: its counts, and that its pairs are a best alignment. -/
structure BestCell (U : Unicode) (groundTruth : List GroundTruthLineItem) (predictions : List InvoiceLine) (i j : ℕ)
    (s : AlignmentState) : Prop where
  counts : s.Counts
  best : OrderAlignment.Best (Scored U groundTruth predictions) AlignedLineItem.groundTruthIndex
    AlignedLineItem.predictionIndex AlignedLineItem.rank i j s.pairs

theorem scored_pair {truth : GroundTruthLineItem} {prediction : InvoiceLine} {i j : ℕ}
    (htruth : groundTruth[i]? = some truth) (hprediction : predictions[j]? = some prediction) (p : AlignedLineItem)
    (hi : p.groundTruthIndex = i) (hj : p.predictionIndex = j) :
    Scored U groundTruth predictions p ↔ p = ⟨i, j, lineItemPairScore U truth prediction,
      isExactLineItem U truth prediction⟩ ∧ 0 < lineItemPairScore U truth prediction := by
  obtain ⟨index, index', score, exact⟩ := p
  obtain rfl : index = i := hi
  obtain rfl : index' = j := hj
  constructor
  · rintro ⟨⟨truth', prediction', htruth', hprediction', hscore, hexact⟩, hpos⟩
    obtain rfl := Option.some.inj (htruth.symm.trans htruth')
    obtain rfl := Option.some.inj (hprediction.symm.trans hprediction')
    obtain rfl : score = _ := hscore
    obtain rfl : exact = _ := hexact
    exact ⟨rfl, hpos⟩
  · rintro ⟨heq, hpos⟩
    obtain ⟨-, -, rfl, rfl⟩ := AlignedLineItem.mk.inj heq
    exact ⟨⟨truth, prediction, htruth, hprediction, rfl, rfl⟩, hpos⟩

/-- One cell keeps what holds of the three before it. -/
theorem BestCell.step {i j : ℕ} {truth : GroundTruthLineItem} {prediction : InvoiceLine}
    {left up diagonal : AlignmentState} (htruth : groundTruth[i]? = some truth)
    (hprediction : predictions[j]? = some prediction) (hleft : BestCell U groundTruth predictions (i + 1) j left)
    (hup : BestCell U groundTruth predictions i (j + 1) up)
    (hdiagonal : BestCell U groundTruth predictions i j diagonal) :
    BestCell U groundTruth predictions (i + 1) (j + 1) (alignCell U (truth, i) (prediction, j) left up diagonal) := by
  have hwithin_up := hup.best.within.mono (Nat.le_succ i) le_rfl
  have hwithin_left := hleft.best.within.mono le_rfl (Nat.le_succ j)
  have hskip : (AlignmentState.larger up left).Counts ∧
      OrderAlignment.Within (Scored U groundTruth predictions) AlignedLineItem.groundTruthIndex
        AlignedLineItem.predictionIndex (i + 1) (j + 1) (AlignmentState.larger up left).pairs := by
    rcases AlignmentState.larger_eq up left with h | h
    · rw [h]; exact ⟨hup.counts, hwithin_up⟩
    · rw [h]; exact ⟨hleft.counts, hwithin_left⟩
  have hskip_up := AlignmentState.le_larger_left up left
  have hskip_left := AlignmentState.le_larger_right up left
  simp only [alignCell]
  split_ifs with hpos
  · set pair : AlignedLineItem := ⟨i, j, lineItemPairScore U truth prediction, isExactLineItem U truth prediction⟩
    have hpair : Scored U groundTruth predictions pair := (scored_pair htruth hprediction pair rfl rfl).2 ⟨rfl, hpos⟩
    have hadd := hdiagonal.counts.add pair
    have hwithin_pair := hdiagonal.best.within.snoc hpair
    have hge := AlignmentState.le_larger_left (AlignmentState.larger up left) (diagonal.add pair)
    have hge_pair := AlignmentState.le_larger_right (AlignmentState.larger up left) (diagonal.add pair)
    set result := AlignmentState.larger (AlignmentState.larger up left) (diagonal.add pair) with hresult
    have hboth : result.Counts ∧ OrderAlignment.Within (Scored U groundTruth predictions)
        AlignedLineItem.groundTruthIndex AlignedLineItem.predictionIndex (i + 1) (j + 1) result.pairs := by
      rcases AlignmentState.larger_eq (AlignmentState.larger up left) (diagonal.add pair) with h | h
      · rw [hresult, h]; exact hskip
      · rw [hresult, h]; exact ⟨hadd, hwithin_pair⟩
    obtain ⟨hcounts, hwithin⟩ := hboth
    refine ⟨hcounts, OrderAlignment.Best.step hwithin hup.best hleft.best hdiagonal.best ?_ ?_ ?_⟩
    · rw [← hup.counts, ← hcounts]
      exact hskip_up.trans hge
    · rw [← hleft.counts, ← hcounts]
      exact hskip_left.trans hge
    · intro p hp hi hj
      rw [((scored_pair htruth hprediction p hi hj).1 hp).1, ← hdiagonal.counts, ← hcounts]
      exact hge_pair
  · obtain ⟨hcounts, hwithin⟩ := hskip
    refine ⟨hcounts, OrderAlignment.Best.step hwithin hup.best hleft.best hdiagonal.best ?_ ?_ ?_⟩
    · rw [← hup.counts, ← hcounts]
      exact hskip_up
    · rw [← hleft.counts, ← hcounts]
      exact hskip_left
    · intro p hp hi hj
      exact absurd ((scored_pair htruth hprediction p hi hj).1 hp).2 hpos

theorem within_iff {pairs : List AlignedLineItem} :
    OrderAlignment.Within (Scored U groundTruth predictions) AlignedLineItem.groundTruthIndex
      AlignedLineItem.predictionIndex groundTruth.length predictions.length pairs ↔
      OrderPreserving U groundTruth predictions pairs := by
  constructor
  · intro h
    exact ⟨h.increasing, fun p hp => (h.below p hp).1⟩
  · intro h
    refine ⟨h.increasing, fun p hp => ⟨h.scored p hp, ?_⟩⟩
    obtain ⟨truth, prediction, htruth, hprediction, -, -⟩ := (h.scored p hp).lines
    exact ⟨(List.getElem?_eq_some_iff.1 htruth).1, (List.getElem?_eq_some_iff.1 hprediction).1⟩

theorem bestCell_final (U : Unicode) (groundTruth : List GroundTruthLineItem) (predictions : List InvoiceLine) :
    BestCell U groundTruth predictions groundTruth.length predictions.length
      (OrderAlignment.final (alignCell U) AlignmentState.empty groundTruth.zipIdx predictions.zipIdx) := by
  have hborder : ∀ i j, i = 0 ∨ j = 0 → BestCell U groundTruth predictions i j AlignmentState.empty :=
    fun i j h => ⟨rfl, OrderAlignment.Best.border h⟩
  have hfinal : BestCell U groundTruth predictions groundTruth.zipIdx.length predictions.zipIdx.length
      (OrderAlignment.final (alignCell U) AlignmentState.empty groundTruth.zipIdx predictions.zipIdx) := by
    refine OrderAlignment.final_rule (fun j => hborder 0 j (Or.inl rfl)) (fun i => hborder i 0 (Or.inr rfl)) ?_
    intro i j a b left up diagonal ha hb hleft hup hdiagonal
    rw [List.getElem?_zipIdx, Option.map_eq_some_iff] at ha hb
    obtain ⟨truth, htruth, rfl⟩ := ha
    obtain ⟨prediction, hprediction, rfl⟩ := hb
    rw [Nat.zero_add, Nat.zero_add]
    exact hleft.step htruth hprediction hup hdiagonal
  rwa [List.length_zipIdx, List.length_zipIdx] at hfinal

end

/-- The alignment goes forward in both lists, has only pairs with a positive score, and no alignment with these two
properties ranks higher. -/
theorem alignLineItems_optimal (U : Unicode) (groundTruth : List GroundTruthLineItem)
    (predictions : List InvoiceLine) :
    OrderPreserving U groundTruth predictions (alignLineItems U groundTruth predictions) ∧
    ∀ other, OrderPreserving U groundTruth predictions other →
      alignmentRank other ≤ alignmentRank (alignLineItems U groundTruth predictions) := by
  have hbest := (bestCell_final U groundTruth predictions).best
  refine ⟨within_iff.1 hbest.within, fun other hother => ?_⟩
  rw [alignmentRank_eq, alignmentRank_eq]
  exact hbest.maximal other (within_iff.2 hother)

end Evaluation

end InvoiceOps
