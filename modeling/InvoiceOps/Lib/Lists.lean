import Mathlib.Data.Fintype.Card
import Mathlib.Data.List.FinRange
import Mathlib.Data.List.Forall2
import Mathlib.Data.List.NodupEquivFin
import Mathlib.Data.List.Sort
import Mathlib.Logic.Equiv.Fin.Basic
import Mathlib.Tactic.Common

/-! Facts about lists used throughout: lookups by a key, maps that may fail, and lists of positions
that are complete. -/

namespace Lists

/-- A lookup by a key that no two elements share finds the element with that key. -/
theorem find?_key {α κ : Type*} [DecidableEq κ] {key : α → κ} {xs : List α} (hnd : (xs.map key).Nodup)
    {x : α} (hx : x ∈ xs) : xs.find? (fun y => key y = key x) = some x := by
  have hsome : (xs.find? fun y => key y = key x).isSome := List.find?_isSome.2 ⟨x, hx, by simp⟩
  obtain ⟨y, hy⟩ := Option.isSome_iff_exists.1 hsome
  have hkey : key y = key x := by simpa using List.find?_some hy
  rw [hy, List.inj_on_of_nodup_map hnd (List.mem_of_find?_eq_some hy) hx hkey]

theorem find?_reverse_key {α κ : Type*} [DecidableEq κ] {key : α → κ} {xs : List α}
    (hnd : (xs.map key).Nodup) {x : α} (hx : x ∈ xs) :
    xs.reverse.find? (fun y => key y = key x) = some x := by
  refine find?_key ?_ (List.mem_reverse.2 hx)
  rw [List.map_reverse]
  exact List.nodup_reverse.2 hnd

theorem filter_key {α κ : Type*} [DecidableEq κ] {key : α → κ} {xs : List α} {x : α} (hnd : (xs.map key).Nodup)
    (hx : x ∈ xs) : xs.filter (key · = key x) = [x] := by
  induction xs with
  | nil => exact absurd hx List.not_mem_nil
  | cons y ys ih =>
    rw [List.map_cons, List.nodup_cons] at hnd
    obtain ⟨hnot, hnd⟩ := hnd
    rcases List.mem_cons.1 hx with rfl | hx
    · have hrest : ys.filter (key · = key x) = [] := by
        refine List.filter_eq_nil_iff.2 fun z hz heq => hnot ?_
        rw [← of_decide_eq_true heq]
        exact List.mem_map_of_mem hz
      simp [hrest]
    · have hne : key y ≠ key x := fun heq => hnot (heq ▸ List.mem_map_of_mem hx)
      rw [List.filter_cons_of_neg (by simpa using hne)]
      exact ih hnd hx

theorem index_eq_of_key {α κ : Type*} {key : α → κ} {xs : List α} (hnd : (xs.map key).Nodup) {i j : ℕ} {x y : α}
    (hx : xs[i]? = some x) (hy : xs[j]? = some y) (hkey : key x = key y) : i = j := by
  have hi : i < (xs.map key).length := by simpa using (List.getElem?_eq_some_iff.1 hx).1
  refine (List.getElem?_inj hi hnd).1 ?_
  rw [List.getElem?_map, List.getElem?_map, hx, hy]
  exact congrArg some hkey

theorem map_set_of_key {α κ : Type*} {key : α → κ} {xs : List α} {i : ℕ} {x y : α} (hx : xs[i]? = some x)
    (hkey : key y = key x) : (xs.set i y).map key = xs.map key := by
  obtain ⟨hi, rfl⟩ := List.getElem?_eq_some_iff.1 hx
  rw [List.map_set, hkey, ← List.map_set, List.set_getElem_self]

/-- What stands in a list after one place of it has been set: what was set, or what stands at another place. -/
theorem mem_set_iff_getElem? {α : Type*} {xs : List α} {i : ℕ} {y z : α} (hi : i < xs.length) :
    z ∈ xs.set i y ↔ z = y ∨ ∃ j ≠ i, xs[j]? = some z := by
  rw [List.mem_iff_getElem?]
  refine ⟨fun h => ?_, fun h => ?_⟩
  · obtain ⟨j, hj⟩ := h
    rw [List.getElem?_set] at hj
    split_ifs at hj with hij
    · exact .inl (Option.some.inj hj).symm
    · exact .inr ⟨j, Ne.symm hij, hj⟩
  · rcases h with rfl | ⟨j, hij, hj⟩
    · exact ⟨i, by rw [List.getElem?_set_self hi]⟩
    · exact ⟨j, by rw [List.getElem?_set_ne (Ne.symm hij), hj]⟩

theorem nodup_map_snoc {α κ : Type*} {key : α → κ} {xs : List α} {x : α} (hnd : (xs.map key).Nodup)
    (hx : key x ∉ xs.map key) : ((xs ++ [x]).map key).Nodup := by
  rw [List.map_append, List.map_singleton, ← List.concat_eq_append]
  exact hnd.concat hx

/-- A reference into a list of keys stays one when an element is added together with its key. -/
theorem mem_keys_snoc {α κ : Type*} {key : α → κ} {xs : List α} {ks : List κ} {x : α} {k : κ}
    (h : ∀ y ∈ xs, key y ∈ ks) (hx : key x = k) : ∀ y ∈ xs ++ [x], key y ∈ ks ++ [k] := by
  intro y hy
  rcases List.mem_append.1 hy with hold | hnew
  · exact List.mem_append_left _ (h y hold)
  · obtain rfl := List.mem_singleton.1 hnew
    exact List.mem_append_right _ (List.mem_singleton.2 hx)

theorem filter_snoc_self {α κ : Type*} [DecidableEq κ] {key : α → κ} {xs : List α} {x : α} {k : κ}
    (hx : key x = k) (hk : k ∉ xs.map key) : (xs ++ [x]).filter (fun y => key y = k) = [x] := by
  have hnil : xs.filter (fun y => key y = k) = [] := by
    refine List.filter_eq_nil_iff.2 fun y hy hyk => hk ?_
    exact List.mem_map.2 ⟨y, hy, of_decide_eq_true hyk⟩
  rw [List.filter_append, hnil]
  simp [hx]

theorem filter_snoc_of_ne {α κ : Type*} [DecidableEq κ] {key : α → κ} {xs : List α} {x : α} {k : κ}
    (hx : key x ≠ k) : (xs ++ [x]).filter (fun y => key y = k) = xs.filter fun y => key y = k := by
  rw [List.filter_append]
  simp [hx]

/-- Two elements are in the relation of a list when the key of the second comes after the key of the first. -/
theorem rel_of_mem_dropWhile {α κ : Type*} [DecidableEq κ] {key : α → κ} {R : α → α → Prop} {xs : List α} {x y : α}
    (h : xs.Pairwise R) (hnd : (xs.map key).Nodup) (hx : x ∈ xs) (hy : y ∈ xs) (hne : key y ≠ key x)
    (hmem : key y ∈ (xs.map key).dropWhile (· ≠ key x)) : R x y := by
  induction xs with
  | nil => cases hx
  | cons z zs ih =>
    rw [List.pairwise_cons] at h
    rw [List.map_cons, List.nodup_cons] at hnd
    rw [List.map_cons] at hmem
    rcases List.mem_cons.1 hx with rfl | hxs
    · rcases List.mem_cons.1 hy with rfl | hys
      · exact absurd rfl hne
      · exact h.1 y hys
    · have hzx : key z ≠ key x := fun heq => hnd.1 (heq ▸ List.mem_map_of_mem hxs)
      rw [List.dropWhile_cons_of_pos (by simpa using hzx)] at hmem
      rcases List.mem_cons.1 hy with rfl | hys
      · exact absurd ((List.dropWhile_sublist _).subset hmem) hnd.1
      · exact ih h.2 hnd.2 hxs hys hmem

/-- What is no key at all is not the key of an element that refers to one. -/
theorem not_mem_keys {α κ : Type*} {key : α → κ} {xs : List α} {ks : List κ} {k : κ}
    (h : ∀ y ∈ xs, key y ∈ ks) (hk : k ∉ ks) : k ∉ xs.map key := by
  intro hmem
  obtain ⟨y, hy, rfl⟩ := List.mem_map.1 hmem
  exact hk (h y hy)

theorem mapM_eq_some_iff {α β : Type*} {f : α → Option β} {xs : List α} {ys : List β} :
    xs.mapM f = some ys ↔ List.Forall₂ (fun x y => f x = some y) xs ys := by
  induction xs generalizing ys with
  | nil => cases ys <;> simp
  | cons x xs ih =>
    simp only [List.mapM_cons, Option.bind_eq_bind, Option.pure_def, Option.bind_eq_some_iff, Option.some.injEq]
    constructor
    · rintro ⟨y, hy, zs, hzs, rfl⟩
      exact .cons hy (ih.1 hzs)
    · rintro (_ | ⟨hy, hzs⟩)
      exact ⟨_, hy, _, ih.2 hzs, rfl⟩

/-- A list related to `xs` whose elements satisfy `Q` exists when each element of `xs` has one. -/
theorem exists_forall₂_iff {α β : Type*} {R : α → β → Prop} {Q : β → Prop} {xs : List α} :
    (∃ ys, List.Forall₂ R xs ys ∧ ∀ y ∈ ys, Q y) ↔ ∀ x ∈ xs, ∃ y, R x y ∧ Q y := by
  constructor
  · rintro ⟨ys, h, hQ⟩
    induction h with
    | nil => simp
    | cons hxy _ ih =>
      intro x hx
      rcases List.mem_cons.1 hx with rfl | hx
      · exact ⟨_, hxy, hQ _ (by simp)⟩
      · exact ih (fun y hy => hQ y (by simp [hy])) x hx
  · intro h
    induction xs with
    | nil => exact ⟨[], .nil, by simp⟩
    | cons x xs ih =>
      obtain ⟨y, hxy, hy⟩ := h x (by simp)
      obtain ⟨ys, hys, hQ⟩ := ih fun z hz => h z (by simp [hz])
      exact ⟨y :: ys, .cons hxy hys, by simpa using ⟨hy, hQ⟩⟩

theorem exists_mapM_iff {α β : Type*} {f : α → Option β} {xs : List α} :
    (∃ ys, xs.mapM f = some ys) ↔ ∀ x ∈ xs, ∃ y, f x = some y := by
  have hall : (∃ ys, List.Forall₂ (fun x y => f x = some y) xs ys ∧ ∀ y ∈ ys, True) ↔
      ∀ x ∈ xs, ∃ y, f x = some y ∧ True := exists_forall₂_iff
  simpa [mapM_eq_some_iff] using hall

/-- An element of the second of two related lists has a partner in the first. -/
theorem exists_of_forall₂_mem {α β : Type*} {R : α → β → Prop} {xs : List α} {ys : List β}
    (h : List.Forall₂ R xs ys) {y : β} (hy : y ∈ ys) : ∃ x ∈ xs, R x y := by
  have hall := exists_forall₂_iff.1 ⟨xs, h.flip, fun _ hx => hx⟩ y hy
  exact hall.imp fun _ hx => hx.symm

theorem forall₂_comp {α β γ : Type*} {R : α → β → Prop} {S : β → γ → Prop} {xs : List α} {ys : List β}
    {zs : List γ} (hxy : List.Forall₂ R xs ys) (hyz : List.Forall₂ S ys zs) :
    List.Forall₂ (fun x z => ∃ y, R x y ∧ S y z) xs zs := by
  induction hxy generalizing zs with
  | nil =>
    obtain rfl := List.forall₂_nil_left_iff.1 hyz
    exact .nil
  | cons hx _ ih =>
    obtain ⟨z, zs, hy, hys, rfl⟩ := List.forall₂_cons_left_iff.1 hyz
    exact .cons ⟨_, hx, hy⟩ (ih hys)

/-- Where `R` holds along two lists as far as both go and the second is no shorter, and each element of the
second has its `S`-partner, the first list and the partners are `Q`-related exactly when the lists have one
length and every element of the first satisfies `P`. -/
theorem forall₂_iff_of_zip {α β γ : Type*} {R : α → β → Prop} {S : β → γ → Prop} {Q : α → γ → Prop} {P : α → Prop}
    (hstep : ∀ a b c, R a b → S b c → (Q a c ↔ P a)) {xs : List α} {ys : List β} {zs : List γ}
    (hS : List.Forall₂ S ys zs) (hR : ∀ r ∈ xs.zip ys, R r.1 r.2) (hlength : xs.length ≤ ys.length) :
    List.Forall₂ Q xs zs ↔ ys.length ≤ xs.length ∧ ∀ x ∈ xs, P x := by
  induction hS generalizing xs with
  | nil =>
    obtain rfl : xs = [] := List.length_eq_zero_iff.1 (Nat.le_zero.1 hlength)
    simp
  | @cons y z ys zs hyz _ ih =>
    cases xs with
    | nil => simp
    | cons x xs =>
      have hrest := @ih xs (fun r hr => hR r (List.mem_cons_of_mem _ hr)) (Nat.le_of_succ_le_succ hlength)
      have hhead := hstep x y z (hR (x, y) (by simp)) hyz
      simp only [List.forall₂_cons, hhead, hrest, List.length_cons, List.forall_mem_cons, Nat.add_le_add_iff_right]
      exact and_left_comm

theorem forall₂_and {α β : Type*} {R S : α → β → Prop} {xs : List α} {ys : List β} (hR : List.Forall₂ R xs ys)
    (hS : List.Forall₂ S xs ys) : List.Forall₂ (fun x y => R x y ∧ S x y) xs ys := by
  obtain ⟨hlength, hzip⟩ := List.forall₂_iff_zip.1 hR
  exact List.forall₂_iff_zip.2 ⟨hlength, fun h => ⟨hzip h, (List.forall₂_iff_zip.1 hS).2 h⟩⟩

theorem map_eq_map_of_forall₂ {α β γ : Type*} {f : α → γ} {g : β → γ} {xs : List α} {ys : List β}
    (h : List.Forall₂ (fun x y => f x = g y) xs ys) : xs.map f = ys.map g := by
  rw [← List.forall₂_eq_eq_eq, List.forall₂_map_left_iff, List.forall₂_map_right_iff]
  exact h

/-- Sorting by a key that no two elements share does not depend on the order of the list. -/
theorem insertionSort_eq_of_perm {α κ : Type*} [LinearOrder κ] {key : α → κ} {xs ys : List α}
    (h : xs.Perm ys) (hnd : (xs.map key).Nodup) :
    xs.insertionSort (fun x y => key x ≤ key y) = ys.insertionSort fun x y => key x ≤ key y := by
  have htotal : Std.Total fun x y => key x ≤ key y := ⟨fun x y => le_total (key x) (key y)⟩
  have htrans : IsTrans α fun x y => key x ≤ key y := ⟨fun _ _ _ => le_trans⟩
  have hxs := List.perm_insertionSort (fun x y => key x ≤ key y) xs
  have hys := List.perm_insertionSort (fun x y => key x ≤ key y) ys
  refine List.Perm.eq_of_pairwise ?_ (List.pairwise_insertionSort _ xs) (List.pairwise_insertionSort _ ys)
    (hxs.trans (h.trans hys.symm))
  intro x y hx hy hxy hyx
  exact List.inj_on_of_nodup_map hnd (hxs.mem_iff.1 hx) (h.mem_iff.2 (hys.mem_iff.1 hy)) (le_antisymm hxy hyx)

theorem forall_mem_iff_le_length {n : ℕ} {xs : List (Fin n)} (h : xs.Nodup) : (∀ i, i ∈ xs) ↔ n ≤ xs.length := by
  have hcard : xs.toFinset.card = xs.length := List.toFinset_card_of_nodup h
  constructor
  · intro hall
    have huniv : xs.toFinset = Finset.univ := Finset.eq_univ_of_forall fun i => List.mem_toFinset.2 (hall i)
    rw [← hcard, huniv, Finset.card_univ, Fintype.card_fin]
  · intro hle i
    have huniv : xs.toFinset = Finset.univ := by
      refine Finset.eq_univ_of_card _ (le_antisymm (Finset.card_le_univ _) ?_)
      rw [Fintype.card_fin, hcard]
      exact hle
    exact List.mem_toFinset.1 (huniv ▸ Finset.mem_univ i)

theorem pairwise_insertionSort_of_ties {α : Type*} {r t : α → α → Prop} [DecidableRel r] [Std.Total r] [IsTrans α r]
    {xs : List α} (h : xs.Pairwise fun x y => r x y → r y x → t x y) :
    (xs.insertionSort r).Pairwise fun x y => r x y ∧ (r y x → t x y) := by
  have hinsert : ∀ (a : α) (ys : List α), (∀ y ∈ ys, r a y → r y a → t a y) →
      ys.Pairwise (fun x y => r x y ∧ (r y x → t x y)) →
      (ys.orderedInsert r a).Pairwise fun x y => r x y ∧ (r y x → t x y) := by
    intro a ys hties hsorted
    induction ys with
    | nil => simp
    | cons b ys ih =>
      obtain ⟨hb, hrest⟩ := List.pairwise_cons.1 hsorted
      unfold List.orderedInsert
      split_ifs with hab
      · refine List.pairwise_cons.2 ⟨fun y hy => ?_, hsorted⟩
        have hay : r a y := by
          rcases List.mem_cons.1 hy with rfl | hy
          · exact hab
          · exact IsTrans.trans _ _ _ hab (hb y hy).1
        exact ⟨hay, hties y hy hay⟩
      · refine List.pairwise_cons.2 ⟨fun y hy => ?_, ih (fun y hy => hties y (List.mem_cons_of_mem _ hy)) hrest⟩
        rcases List.mem_cons.1 ((List.perm_orderedInsert r a ys).mem_iff.1 hy) with rfl | hy
        · exact ⟨(Std.Total.total b y).resolve_right hab, fun hyb => absurd hyb hab⟩
        · exact hb y hy
  induction xs with
  | nil => simp
  | cons a xs ih =>
    obtain ⟨ha, hrest⟩ := List.pairwise_cons.1 h
    exact hinsert a _ (fun y hy => ha y ((List.mem_insertionSort r).1 hy)) (ih hrest)

/-- Sorting by a key that no two elements share and selecting may change places. -/
theorem filter_insertionSort {α κ : Type*} {r : κ → κ → Prop} [DecidableRel r] [Std.Total r] [IsTrans κ r]
    [Std.Antisymm r] {key : α → κ} {xs : List α} (hnd : (xs.map key).Nodup) (p : α → Bool) :
    (xs.insertionSort fun x y => r (key x) (key y)).filter p =
      (xs.filter p).insertionSort fun x y => r (key x) (key y) := by
  have htotal : Std.Total fun x y => r (key x) (key y) := ⟨fun x y => Std.Total.total (key x) (key y)⟩
  have htrans : IsTrans α fun x y => r (key x) (key y) := ⟨fun _ _ _ => IsTrans.trans _ _ _⟩
  have hsort := List.perm_insertionSort (fun x y => r (key x) (key y)) xs
  have hselected := List.perm_insertionSort (fun x y => r (key x) (key y)) (xs.filter p)
  refine List.Perm.eq_of_pairwise ?_ ((List.pairwise_insertionSort _ xs).filter p) (List.pairwise_insertionSort _ _)
    ((hsort.filter p).trans hselected.symm)
  intro x y hx hy hxy hyx
  have hxs : x ∈ xs := hsort.mem_iff.1 (List.mem_filter.1 hx).1
  have hys : y ∈ xs := (List.mem_filter.1 (hselected.mem_iff.1 hy)).1
  exact List.inj_on_of_nodup_map hnd hxs hys (Std.Antisymm.antisymm _ _ hxy hyx)

/-- Elements that contribute nothing may be left out of a `flatMap`. -/
theorem flatMap_filter_of_nil {α β : Type*} {f : α → List β} {p : α → Bool} {xs : List α}
    (h : ∀ x ∈ xs, p x = false → f x = []) : (xs.filter p).flatMap f = xs.flatMap f := by
  induction xs with
  | nil => rfl
  | cons x xs ih =>
    have hrest := ih fun y hy => h y (by simp [hy])
    cases hp : p x with
    | true => rw [List.filter_cons_of_pos hp, List.flatMap_cons, List.flatMap_cons, hrest]
    | false =>
      rw [List.filter_cons_of_neg (by simp [hp]), List.flatMap_cons, h x (by simp) hp, hrest, List.nil_append]

/-- A `flatMap` that keeps or leaves out each element. -/
theorem flatMap_ite {α β : Type*} {f : α → β} {p : α → Bool} {xs : List α} :
    (xs.flatMap fun x => if p x = true then [f x] else []) = (xs.filter p).map f := by
  induction xs with
  | nil => rfl
  | cons x xs ih =>
    rw [List.flatMap_cons, ih]
    cases hp : p x with
    | true => rw [if_pos rfl, List.filter_cons_of_pos hp, List.map_cons, List.singleton_append]
    | false => rw [if_neg Bool.false_ne_true, List.filter_cons_of_neg (by simp [hp]), List.nil_append]

theorem range_max (m n : ℕ) : List.range (max m n) = List.range m ++ List.range' m (n - m) := by
  have happend := List.range'_append_1 (s := 0) (m := m) (n := n - m)
  rw [Nat.zero_add] at happend
  rw [List.range_eq_range', List.range_eq_range', happend]
  congr 1
  omega

theorem flatMap_filter_key_perm {α κ : Type*} [DecidableEq κ] {key : α → κ} {ks : List κ} {xs : List α}
    (hnd : ks.Nodup) (hkeys : ∀ x ∈ xs, key x ∈ ks) : (ks.flatMap fun k => xs.filter fun x => key x = k).Perm xs := by
  induction ks generalizing xs with
  | nil =>
    have hnil : xs = [] := List.eq_nil_iff_forall_not_mem.2 fun x hx => List.not_mem_nil (hkeys x hx)
    rw [hnil, List.flatMap_nil]
  | cons k ks ih =>
    obtain ⟨hk, hnd⟩ := List.nodup_cons.1 hnd
    have hrest : (ks.flatMap fun k' => xs.filter fun x => key x = k') =
        ks.flatMap fun k' => (xs.filter fun x => !decide (key x = k)).filter fun x => key x = k' := by
      refine List.flatMap_congr fun k' hk' => ?_
      rw [List.filter_filter]
      refine List.filter_congr fun x _ => ?_
      by_cases hx : key x = k'
      · have hne : key x ≠ k := fun h => hk (h ▸ hx ▸ hk')
        simp [hx, hx ▸ hne]
      · simp [hx]
    have hothers : ∀ x ∈ xs.filter (fun x => !decide (key x = k)), key x ∈ ks := by
      intro x hx
      obtain ⟨hmem, hne⟩ := List.mem_filter.1 hx
      exact (List.mem_cons.1 (hkeys x hmem)).resolve_left (by simpa using hne)
    rw [List.flatMap_cons, hrest]
    exact ((ih hnd hothers).append_left _).trans (List.filter_append_perm _ xs)

/-- An element that is at one place occurs once exactly when it is at no other place. -/
theorem count_eq_one_iff {α : Type*} [DecidableEq α] {xs : List α} {a : α} {i : ℕ} (hi : xs[i]? = some a) :
    xs.count a = 1 ↔ ∀ j, xs[j]? = some a → j = i := by
  have hpos : 1 ≤ xs.count a := List.one_le_count_iff.2 (List.mem_of_getElem? hi)
  obtain ⟨hilt, hia⟩ := List.getElem?_eq_some_iff.1 hi
  constructor
  · intro hone j hj
    by_contra hne
    obtain ⟨hjlt, hja⟩ := List.getElem?_eq_some_iff.1 hj
    have hdup : List.Duplicate a xs := by
      rw [List.duplicate_iff_exists_distinct_get]
      rcases Nat.lt_or_gt_of_ne hne with hlt | hlt
      · exact ⟨⟨j, hjlt⟩, ⟨i, hilt⟩, hlt, hja.symm, hia.symm⟩
      · exact ⟨⟨i, hilt⟩, ⟨j, hjlt⟩, hlt, hia.symm, hja.symm⟩
    have htwo := List.duplicate_iff_two_le_count.1 hdup
    omega
  · intro hunique
    by_contra hne
    have hdup : List.Duplicate a xs := List.duplicate_iff_two_le_count.2 (by omega)
    obtain ⟨m, n, hlt, hm, hn⟩ := List.duplicate_iff_exists_distinct_get.1 hdup
    have hmi := hunique m (List.getElem?_eq_some_iff.2 ⟨m.isLt, hm.symm⟩)
    have hni := hunique n (List.getElem?_eq_some_iff.2 ⟨n.isLt, hn.symm⟩)
    rw [Fin.lt_def] at hlt
    omega

theorem one_lt_countP {α : Type*} {p : α → Bool} {xs : List α} {a b : α} {i j : ℕ} (hi : xs[i]? = some a)
    (hj : xs[j]? = some b) (hne : i ≠ j) (ha : p a = true) (hb : p b = true) : 1 < xs.countP p := by
  have hcount : xs.countP p = (xs.map p).count true := by
    rw [List.count, List.countP_map]
    exact List.countP_congr fun x _ => by simp
  have hi' : (xs.map p)[i]? = some true := by rw [List.getElem?_map, hi, Option.map_some, ha]
  have hj' : (xs.map p)[j]? = some true := by rw [List.getElem?_map, hj, Option.map_some, hb]
  have hpos : 0 < (xs.map p).count true := List.count_pos_iff.2 (List.mem_of_getElem? hi')
  have hone : (xs.map p).count true ≠ 1 := fun h => hne ((count_eq_one_iff hi').1 h j hj').symm
  omega

/-- The element at position `i` of `ys` is the one at position `s i` of `xs`. -/
structure PermutedBy {α : Type*} (s : Equiv.Perm ℕ) (ys xs : List α) : Prop where
  perm : ys.Perm xs
  getElem? : ∀ i : ℕ, ys[i]? = xs[s i]?

theorem PermutedBy.map {α β : Type*} {s : Equiv.Perm ℕ} {ys xs : List α} (h : PermutedBy s ys xs) (f : α → β) :
    PermutedBy s (ys.map f) (xs.map f) :=
  ⟨h.perm.map f, fun i => by rw [List.getElem?_map, List.getElem?_map, h.getElem?]⟩

/-- The elements of `xs` in the order of a permutation of its positions. -/
def permute {α : Type*} (xs : List α) (σ : Equiv.Perm (Fin xs.length)) : List α := List.ofFn fun i => xs.get (σ i)

/-- The permutation of the positions, the identity beyond the end of the list. -/
def onPositions {n : ℕ} (σ : Equiv.Perm (Fin n)) : Equiv.Perm ℕ := σ.extendDomain Fin.equivSubtype

theorem onPositions_of_lt {n i : ℕ} (σ : Equiv.Perm (Fin n)) (h : i < n) : onPositions σ i = σ ⟨i, h⟩ :=
  Equiv.Perm.extendDomain_apply_image σ Fin.equivSubtype ⟨i, h⟩

theorem onPositions_of_ge {n i : ℕ} (σ : Equiv.Perm (Fin n)) (h : n ≤ i) : onPositions σ i = i :=
  Equiv.Perm.extendDomain_apply_not_subtype σ Fin.equivSubtype (by omega)

theorem permutedBy_permute {α : Type*} (xs : List α) (σ : Equiv.Perm (Fin xs.length)) :
    PermutedBy (onPositions σ) (permute xs σ) xs := by
  constructor
  · have h := σ.ofFn_comp_perm xs.get
    rwa [List.ofFn_get] at h
  · intro i
    rcases Nat.lt_or_ge i xs.length with h | h
    · rw [permute, List.getElem?_ofFn, dif_pos h, onPositions_of_lt σ h, List.getElem?_eq_getElem (σ ⟨i, h⟩).isLt]
      rfl
    · rw [onPositions_of_ge σ h, List.getElem?_eq_none h, List.getElem?_eq_none (by simpa [permute] using h)]

theorem foldl_max_range' (n : ℕ) : (List.range' 1 n).foldl max 0 = n := by
  induction n with
  | zero => rfl
  | succ n ih =>
    rw [List.range'_concat, List.foldl_append, ih]
    simp only [List.foldl_cons, List.foldl_nil]
    omega

/-- Distinct positions carry all elements of a list, in some order, when all positions occur. -/
theorem map_get_perm_iff {β γ : Type*} {xs : List β} (f : β → γ) {ps : List (Fin xs.length)}
    (hnd : ps.Nodup) : (ps.map fun j => f (xs.get j)).Perm (xs.map f) ↔ ∀ j, j ∈ ps := by
  constructor
  · intro h j
    have hcard : ps.toFinset.card = Fintype.card (Fin xs.length) := by
      rw [List.toFinset_card_of_nodup hnd, Fintype.card_fin]
      simpa using h.length_eq
    have huniv := Finset.eq_univ_of_card _ hcard
    rw [← List.mem_toFinset, huniv]
    exact Finset.mem_univ j
  · intro h
    have hperm : ps.Perm (List.finRange xs.length) :=
      (List.perm_ext_iff_of_nodup hnd (List.nodup_finRange _)).2 fun j => by simp [h j]
    have hxs : (List.finRange xs.length).map (fun j => f (xs.get j)) = xs.map f := by
      apply List.ext_getElem
      · simp
      · intro n h1 h2; simp
    exact hxs ▸ hperm.map _

theorem map_val_perm_range_iff {n : ℕ} {ps : List (Fin n)} (hnd : ps.Nodup) :
    (ps.map Fin.val).Perm (List.range n) ↔ ∀ i, i ∈ ps := by
  constructor
  · intro h i
    have hi : (i : ℕ) ∈ ps.map Fin.val := h.mem_iff.2 (List.mem_range.2 i.isLt)
    obtain ⟨k, hk, hki⟩ := List.mem_map.1 hi
    rwa [← Fin.ext hki]
  · intro h
    have hnd' : (ps.map Fin.val).Nodup := hnd.map Fin.val_injective
    refine (List.perm_ext_iff_of_nodup hnd' List.nodup_range).2 fun k => ?_
    rw [List.mem_range, List.mem_map]
    refine ⟨fun hk => ?_, fun hk => ⟨⟨k, hk⟩, h _, rfl⟩⟩
    obtain ⟨i, -, rfl⟩ := hk
    exact i.isLt

/-- Two lists that differ in order only have the same elements at places that correspond. -/
theorem exists_equiv_of_perm {α : Type*} {xs ys : List α} (h : xs.Perm ys) :
    ∃ e : Fin xs.length ≃ Fin ys.length, ∀ i, ys.get (e i) = xs.get i := by
  induction h with
  | nil => exact ⟨finCongr rfl, fun i => i.elim0⟩
  | @cons x xs ys _ ih =>
    obtain ⟨e, he⟩ := ih
    refine ⟨(finSuccEquiv _).trans (e.optionCongr.trans (finSuccEquiv _).symm), Fin.cases ?_ fun i => ?_⟩
    · simp
    · simpa using he i
  | swap x y xs =>
    refine ⟨Equiv.swap 0 1, Fin.cases ?_ (Fin.cases ?_ fun i => ?_)⟩
    · simp
    · simp
    · rw [Equiv.swap_apply_of_ne_of_ne (by simp [Fin.ext_iff]) (by simp [Fin.ext_iff])]
      rfl
  | trans _ _ ih ih' =>
    obtain ⟨e, he⟩ := ih
    obtain ⟨e', he'⟩ := ih'
    exact ⟨e.trans e', fun i => (he' (e i)).trans (he i)⟩

end Lists
