import InvoiceOps.Lib.Lists
import Mathlib.Algebra.BigOperators.Group.List.Basic
import Mathlib.Algebra.Order.Monoid.Defs
import Mathlib.Algebra.Order.Ring.Nat
import Mathlib.Data.List.Induction
import Mathlib.Tactic.Common

/-! Order-preserving alignments of two lists. `final` is the last cell of a table over all pairs of prefixes, each
cell computed from the three cells before it. A property of the cells that holds on the border and is kept by the
cell function holds at the end (`final_rule`); `Best` is such a property. -/

namespace OrderAlignment

section Table
variable {α β S : Type}

/-- A row after its first cell, from the row above. -/
def fillRow (cell : β → S → S → S → S) : S → S → List S → List β → List S
  | left, diagonal, up :: ups, b :: bs =>
    let next := cell b left up diagonal
    next :: fillRow cell next up ups bs
  | _, _, _, _ => []

def nextRow (cell : β → S → S → S → S) (start : S) (bs : List β) : List S → List S
  | diagonal :: ups => start :: fillRow cell start diagonal ups bs
  | [] => []

def lastRow (cell : α → β → S → S → S → S) (start : S) (as : List α) (bs : List β) : List S :=
  as.foldl (fun above a => nextRow (cell a) start bs above) (List.replicate (bs.length + 1) start)

def final (cell : α → β → S → S → S → S) (start : S) (as : List α) (bs : List β) : S :=
  (lastRow cell start as bs).getLastD start

theorem length_fillRow {cell : β → S → S → S → S} {left diagonal : S} {ups : List S} {bs : List β}
    (h : ups.length = bs.length) : (fillRow cell left diagonal ups bs).length = bs.length := by
  induction bs generalizing left diagonal ups with
  | nil => rw [List.length_eq_zero_iff.1 h]; rfl
  | cons b bs ih =>
    obtain ⟨up, ups, rfl⟩ := List.exists_cons_of_length_eq_add_one h
    exact congrArg (· + 1) (ih (Nat.succ_injective h))

/-- What holds of the cells above, and at the start of the row, holds along the row. -/
theorem fillRow_rule {cell : β → S → S → S → S} (above here : ℕ → S → Prop) {left diagonal : S} {ups : List S}
    {bs : List β} (hleft : here 0 left) (hdiagonal : above 0 diagonal)
    (hups : ∀ j s, ups[j]? = some s → above (j + 1) s)
    (hcell : ∀ j b left up diagonal, bs[j]? = some b → here j left → above (j + 1) up → above j diagonal →
      here (j + 1) (cell b left up diagonal)) :
    ∀ j s, (fillRow cell left diagonal ups bs)[j]? = some s → here (j + 1) s := by
  induction bs generalizing left diagonal ups above here with
  | nil =>
    intro j s hs
    cases ups with
    | nil => cases hs
    | cons up ups => cases hs
  | cons b bs ih =>
    cases ups with
    | nil =>
      intro j s hs
      cases hs
    | cons up ups =>
      have hup : above 1 up := hups 0 up rfl
      have hnext : here 1 (cell b left up diagonal) := hcell 0 b left up diagonal rfl hleft hup hdiagonal
      intro j s hs
      cases j with
      | zero =>
        obtain rfl := Option.some.inj hs
        exact hnext
      | succ j =>
        -- the rest of the row starts one cell further on
        have hrest := ih (fun j => above (j + 1)) (fun j => here (j + 1)) hnext hup
          (fun j s h => hups (j + 1) s h) fun j b left up diagonal h => hcell (j + 1) b left up diagonal h
        exact hrest j s hs

/-- A row of the table: its length and what its cells satisfy. -/
structure Row (P : ℕ → ℕ → S → Prop) (columns i : ℕ) (row : List S) : Prop where
  length : row.length = columns + 1
  cells : ∀ j s, row[j]? = some s → P i j s

theorem Row.next {P : ℕ → ℕ → S → Prop} {cell : β → S → S → S → S} {start : S} {bs : List β} {i : ℕ} {row : List S}
    (h : Row P bs.length i row) (hstart : P (i + 1) 0 start)
    (hcell : ∀ j b left up diagonal, bs[j]? = some b → P (i + 1) j left → P i (j + 1) up → P i j diagonal →
      P (i + 1) (j + 1) (cell b left up diagonal)) :
    Row P bs.length (i + 1) (nextRow cell start bs row) := by
  obtain ⟨diagonal, ups, rfl⟩ := List.exists_cons_of_length_eq_add_one h.length
  refine ⟨congrArg (· + 1) (length_fillRow (Nat.succ_injective h.length)), ?_⟩
  intro j s hs
  cases j with
  | zero =>
    obtain rfl := Option.some.inj hs
    exact hstart
  | succ j =>
    exact fillRow_rule (P i) (P (i + 1)) hstart (h.cells 0 diagonal rfl) (fun j s hj => h.cells (j + 1) s hj) hcell j s hs

theorem lastRow_rule {P : ℕ → ℕ → S → Prop} {cell : α → β → S → S → S → S} {start : S} {as : List α} {bs : List β}
    (hrow : ∀ j, P 0 j start) (hcolumn : ∀ i, P i 0 start)
    (hcell : ∀ i j a b left up diagonal, as[i]? = some a → bs[j]? = some b → P (i + 1) j left → P i (j + 1) up →
      P i j diagonal → P (i + 1) (j + 1) (cell a b left up diagonal)) :
    Row P bs.length as.length (lastRow cell start as bs) := by
  induction as using List.reverseRecOn with
  | nil =>
    refine ⟨List.length_replicate, ?_⟩
    intro j s hs
    obtain rfl := List.eq_of_mem_replicate (List.mem_of_getElem? hs)
    exact hrow j
  | append_singleton as a ih =>
    have hbefore : Row P bs.length as.length (lastRow cell start as bs) := by
      refine ih fun i j a' b left up diagonal ha => hcell i j a' b left up diagonal ?_
      rw [List.getElem?_append_left (List.getElem?_eq_some_iff.1 ha).1, ha]
    rw [lastRow, List.foldl_append, List.length_append]
    exact hbefore.next (hcolumn _) fun j b left up diagonal => hcell as.length j a b left up diagonal (by simp)

theorem final_rule {P : ℕ → ℕ → S → Prop} {cell : α → β → S → S → S → S} {start : S} {as : List α} {bs : List β}
    (hrow : ∀ j, P 0 j start) (hcolumn : ∀ i, P i 0 start)
    (hcell : ∀ i j a b left up diagonal, as[i]? = some a → bs[j]? = some b → P (i + 1) j left → P i (j + 1) up →
      P i j diagonal → P (i + 1) (j + 1) (cell a b left up diagonal)) :
    P as.length bs.length (final cell start as bs) := by
  have hlast := lastRow_rule hrow hcolumn hcell
  refine hlast.cells bs.length _ ?_
  rw [final, List.getLastD_eq_getLast?, List.getLast?_eq_getElem?, hlast.length, Nat.add_sub_cancel]
  rw [List.getElem?_eq_getElem (by rw [hlast.length]; exact Nat.lt_succ_self _), Option.getD_some]

end Table

section Best
variable {π R : Type} [AddCommMonoid R] [LinearOrder R] [IsOrderedAddMonoid R] {ok : π → Prop} {fst snd : π → ℕ}
  {weight : π → R} {i j : ℕ} {pairs : List π}

/-- An alignment of the first `i` elements with the first `j`, made of pairs that are `ok`. -/
structure Within (ok : π → Prop) (fst snd : π → ℕ) (i j : ℕ) (pairs : List π) : Prop where
  increasing : pairs.Pairwise fun p q => fst p < fst q ∧ snd p < snd q
  below : ∀ p ∈ pairs, ok p ∧ fst p < i ∧ snd p < j

def total (weight : π → R) (pairs : List π) : R := (pairs.map weight).sum

structure Best (ok : π → Prop) (fst snd : π → ℕ) (weight : π → R) (i j : ℕ) (pairs : List π) : Prop where
  within : Within ok fst snd i j pairs
  maximal : ∀ other, Within ok fst snd i j other → total weight other ≤ total weight pairs

theorem Within.nil (i j : ℕ) : Within ok fst snd i j [] := ⟨List.Pairwise.nil, by simp⟩

theorem Within.mono {i' j' : ℕ} (h : Within ok fst snd i j pairs) (hi : i ≤ i') (hj : j ≤ j') :
    Within ok fst snd i' j' pairs :=
  ⟨h.increasing, fun p hp =>
    ⟨(h.below p hp).1, (h.below p hp).2.1.trans_le hi, (h.below p hp).2.2.trans_le hj⟩⟩

theorem Within.snoc {p : π} (h : Within ok fst snd (fst p) (snd p) pairs) (hp : ok p) :
    Within ok fst snd (fst p + 1) (snd p + 1) (pairs ++ [p]) := by
  constructor
  · refine List.pairwise_append.2 ⟨h.increasing, List.pairwise_singleton _ _, ?_⟩
    intro q hq r hr
    rw [List.mem_singleton.1 hr]
    exact (h.below q hq).2
  · intro q hq
    rcases List.mem_append.1 hq with hq | hq
    · exact (h.mono (Nat.le_succ _) (Nat.le_succ _)).below q hq
    · rw [List.mem_singleton.1 hq]
      exact ⟨hp, Nat.lt_succ_self _, Nat.lt_succ_self _⟩

/-- An alignment leaves out the last element on one side or ends with the pair of the last two. -/
theorem Within.cases (h : Within ok fst snd (i + 1) (j + 1) pairs) :
    Within ok fst snd i (j + 1) pairs ∨ Within ok fst snd (i + 1) j pairs ∨
      ∃ before p, pairs = before ++ [p] ∧ ok p ∧ fst p = i ∧ snd p = j ∧ Within ok fst snd i j before := by
  rcases List.eq_nil_or_concat' pairs with rfl | ⟨before, p, rfl⟩
  · exact Or.inl (Within.nil i (j + 1))
  · obtain ⟨hbefore, -, hlast⟩ := List.pairwise_append.1 h.increasing
    have hlt : ∀ q ∈ before, fst q < fst p ∧ snd q < snd p := fun q hq => hlast q hq p (List.mem_singleton_self p)
    obtain ⟨hok, hi, hj⟩ := h.below p (by simp)
    rcases Nat.lt_succ_iff_lt_or_eq.1 hi with hi | rfl
    · refine Or.inl ⟨h.increasing, fun q hq => ⟨(h.below q hq).1, ?_, (h.below q hq).2.2⟩⟩
      rcases List.mem_append.1 hq with hq | hq
      · exact (hlt q hq).1.trans hi
      · rwa [List.mem_singleton.1 hq]
    · rcases Nat.lt_succ_iff_lt_or_eq.1 hj with hj | rfl
      · refine Or.inr (Or.inl ⟨h.increasing, fun q hq => ⟨(h.below q hq).1, (h.below q hq).2.1, ?_⟩⟩)
        rcases List.mem_append.1 hq with hq | hq
        · exact (hlt q hq).2.trans hj
        · rwa [List.mem_singleton.1 hq]
      · refine Or.inr (Or.inr ⟨before, p, rfl, hok, rfl, rfl, hbefore, fun q hq => ?_⟩)
        exact ⟨(h.below q (List.mem_append_left _ hq)).1, hlt q hq⟩

omit [LinearOrder R] [IsOrderedAddMonoid R] in
theorem total_snoc (before : List π) (p : π) : total weight (before ++ [p]) = total weight before + weight p := by
  simp [total]

omit [IsOrderedAddMonoid R] in
/-- Where one side is empty, so is the best alignment. -/
theorem Best.border (h : i = 0 ∨ j = 0) : Best ok fst snd weight i j [] := by
  refine ⟨Within.nil i j, fun other hother => ?_⟩
  have hnil : other = [] := by
    refine List.eq_nil_iff_forall_not_mem.2 fun p hp => ?_
    obtain ⟨-, hi, hj⟩ := hother.below p hp
    omega
  rw [hnil]

/-- An alignment that outweighs the three before it, the last one with any last pair, is best. -/
theorem Best.step {up left diagonal : List π} (hwithin : Within ok fst snd (i + 1) (j + 1) pairs)
    (hup : Best ok fst snd weight i (j + 1) up) (hleft : Best ok fst snd weight (i + 1) j left)
    (hdiagonal : Best ok fst snd weight i j diagonal) (hge_up : total weight up ≤ total weight pairs)
    (hge_left : total weight left ≤ total weight pairs)
    (hge_pair : ∀ p, ok p → fst p = i → snd p = j → total weight diagonal + weight p ≤ total weight pairs) :
    Best ok fst snd weight (i + 1) (j + 1) pairs := by
  refine ⟨hwithin, fun other hother => ?_⟩
  rcases hother.cases with h | h | ⟨before, p, rfl, hok, hi, hj, h⟩
  · exact (hup.maximal other h).trans hge_up
  · exact (hleft.maximal other h).trans hge_left
  · calc total weight (before ++ [p]) = total weight before + weight p := total_snoc before p
      _ ≤ total weight diagonal + weight p := add_le_add_left (hdiagonal.maximal before h) _
      _ ≤ total weight pairs := hge_pair p hok hi hj

end Best

section Sums
variable {π : Type} {key : π → ℕ} {ks : List ℕ} {pairs : List π}

/-- Looked up by their positions in one of the lists, the pairs of an alignment are found once each. -/
theorem lookups_perm (hks : ks.Nodup) (hnd : (pairs.map key).Nodup) (hmem : ∀ p ∈ pairs, key p ∈ ks) :
    (ks.filterMap fun k => pairs.reverse.find? (key · = k)).Perm pairs := by
  have hfound : ∀ k p, pairs.reverse.find? (key · = k) = some p → key p = k ∧ p ∈ pairs := fun k p h =>
    ⟨by simpa using List.find?_some h, List.mem_reverse.1 (List.mem_of_find?_eq_some h)⟩
  refine (List.perm_ext_iff_of_nodup (hks.filterMap fun k k' p hk hk' => ?_) (List.Nodup.of_map _ hnd)).2 fun p => ?_
  · exact (hfound k p hk).1.symm.trans (hfound k' p hk').1
  · rw [List.mem_filterMap]
    constructor
    · rintro ⟨k, -, hk⟩
      exact (hfound k p hk).2
    · intro hp
      exact ⟨key p, hmem p hp, Lists.find?_reverse_key hnd hp⟩

theorem sum_lookups (hks : ks.Nodup) (hnd : (pairs.map key).Nodup) (hmem : ∀ p ∈ pairs, key p ∈ ks) (f : π → ℕ) :
    (ks.map fun k => ((pairs.reverse.find? (key · = k)).map f).getD 0).sum = (pairs.map f).sum := by
  rw [← ((lookups_perm hks hnd hmem).map f).sum_eq]
  -- what is not found adds nothing
  clear hks hmem
  induction ks with
  | nil => rfl
  | cons k ks ih =>
    rw [List.map_cons, List.sum_cons, ih, List.filterMap_cons]
    cases pairs.reverse.find? (key · = k) with
    | none => exact Nat.zero_add _
    | some p => rfl

/-- What the pairs reach in a list, with what they leave out, is the whole list. -/
theorem sum_paired_add_unpaired (hks : ks.Nodup) (hnd : (pairs.map key).Nodup) (hmem : ∀ p ∈ pairs, key p ∈ ks)
    (f : ℕ → ℕ) :
    (pairs.map fun p => f (key p)).sum + (ks.map fun k => if k ∈ pairs.map key then 0 else f k).sum =
      (ks.map f).sum := by
  rw [← sum_lookups hks hnd hmem, ← List.sum_map_add]
  refine congrArg List.sum (List.map_congr_left fun k _ => ?_)
  by_cases hk : k ∈ pairs.map key
  · rw [if_pos hk]
    obtain ⟨p, hp, rfl⟩ := List.mem_map.1 hk
    rw [Lists.find?_reverse_key hnd hp]
    rfl
  · have hnone : pairs.reverse.find? (key · = k) = none := by
      refine List.find?_eq_none.2 fun p hp heq => hk ?_
      rw [← of_decide_eq_true heq]
      exact List.mem_map_of_mem (List.mem_reverse.1 hp)
    rw [if_neg hk, hnone]
    exact Nat.zero_add _

/-- A loop that adds to a count what each element is worth. -/
theorem count_foldl {σ α : Type} (count : σ → ℕ) {step : σ → α → σ} {worth : α → ℕ}
    (h : ∀ s a, count (step s a) = count s + worth a) (s : σ) (as : List α) :
    count (as.foldl step s) = count s + (as.map worth).sum := by
  induction as generalizing s with
  | nil => rfl
  | cons a as ih => rw [List.foldl_cons, ih, h, List.map_cons, List.sum_cons, Nat.add_assoc]

end Sums

end OrderAlignment
