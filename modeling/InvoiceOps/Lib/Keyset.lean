import Mathlib.Data.List.Nodup
import Mathlib.Order.Lattice
import Mathlib.Tactic

/-! Reading a list page by page. The list is in strictly decreasing order of a key and an element may have
several rows. A page is a number of rows, and the next one has the elements below the key of its last row. -/

namespace Keyset

variable {α κ : Type*} [LinearOrder κ] {key : α → κ} {m : α → ℕ} {limit : ℕ} {L : List α}

def rows (m : α → ℕ) (L : List α) : List α := L.flatMap fun a => List.replicate (m a) a

/-- What is read from a list, from its first page to the last. -/
inductive Reads (key : α → κ) (m : α → ℕ) (limit : ℕ) : List α → List α → Prop
  | last {L : List α} : (rows m L).length ≤ limit → Reads key m limit L (rows m L)
  | next {L out : List α} {a : α} : limit < (rows m L).length → ((rows m L).take limit).getLast? = some a →
      Reads key m limit (L.filter fun b => key b < key a) out → Reads key m limit L ((rows m L).take limit ++ out)

/-- An element with several rows is the last of a page. -/
def Aligned (m : α → ℕ) (limit : ℕ) (L : List α) : Prop :=
  ∀ i : ℕ, ∀ h : i < L.length, 1 < m L[i] → limit ∣ i + 1

@[simp] theorem rows_nil : rows m [] = [] := rfl

@[simp] theorem rows_cons (a : α) (L : List α) : rows m (a :: L) = List.replicate (m a) a ++ rows m L := by
  simp [rows]

theorem length_le_rows (hm : ∀ a ∈ L, 1 ≤ m a) : L.length ≤ (rows m L).length := by
  induction L with
  | nil => simp
  | cons a L ih =>
    obtain ⟨ha, hL⟩ := List.forall_mem_cons.1 hm
    have hle := ih hL
    simp only [rows_cons, List.length_cons, List.length_append, List.length_replicate]
    omega

theorem mem_of_mem_rows {a : α} (h : a ∈ rows m L) : a ∈ L := by
  obtain ⟨b, hb, hab⟩ := List.mem_flatMap.1 h
  exact List.eq_of_mem_replicate hab ▸ hb

theorem pairwise_rows (hL : L.Pairwise fun a b => key b < key a) : (rows m L).Pairwise fun a b => key b ≤ key a := by
  induction L with
  | nil => exact List.Pairwise.nil
  | cons a L ih =>
    obtain ⟨ha, hrest⟩ := List.pairwise_cons.1 hL
    rw [rows_cons, List.pairwise_append]
    refine ⟨List.pairwise_replicate.2 (Or.inr le_rfl), ih hrest, ?_⟩
    intro b hb c hc
    obtain rfl := List.eq_of_mem_replicate hb
    exact (ha c (mem_of_mem_rows hc)).le

/-- As long as the elements have one row each, rows and elements are the same; the last one may have more. -/
theorem take_rows {n : ℕ} (hm : ∀ a ∈ L, 1 ≤ m a) (hone : ∀ i : ℕ, ∀ h : i < L.length, i + 1 < n → m L[i] = 1) :
    (rows m L).take n = L.take n := by
  induction L generalizing n with
  | nil => simp
  | cons a L ih =>
    obtain ⟨ha, hL⟩ := List.forall_mem_cons.1 hm
    obtain ⟨k, hk⟩ : ∃ k, m a = k + 1 := ⟨m a - 1, by omega⟩
    rcases n with _ | _ | n
    · simp
    · simp [hk, List.replicate_succ]
    · have h1 : m a = 1 := hone 0 (by simp) (by omega)
      have hrest : ∀ i : ℕ, ∀ h : i < L.length, i + 1 < n + 1 → m L[i] = 1 :=
        fun i h hlt => hone (i + 1) (by simpa using h) (by omega)
      rw [rows_cons, h1, List.replicate_one, List.singleton_append, List.take_succ_cons, List.take_succ_cons, ih hL hrest]

/-- Rows without a repetition belong to different elements. -/
theorem one_of_nodup {n : ℕ} (hm : ∀ a ∈ L, 1 ≤ m a) (h : ((rows m L).take n).Nodup) :
    ∀ i : ℕ, ∀ h : i < L.length, i + 1 < n → m L[i] = 1 := by
  induction L generalizing n with
  | nil => simp
  | cons a L ih =>
    obtain ⟨ha, hL⟩ := List.forall_mem_cons.1 hm
    intro i hi hlt
    obtain ⟨n, rfl⟩ : ∃ k, n = k + 2 := ⟨n - 2, by omega⟩
    have h1 : m a = 1 := by
      by_contra hne
      obtain ⟨k, hk⟩ : ∃ k, m a = k + 2 := ⟨m a - 2, by omega⟩
      simp [hk, List.replicate_succ] at h
    cases i with
    | zero => exact h1
    | succ i =>
      rw [rows_cons, h1, List.replicate_one, List.singleton_append, List.take_succ_cons] at h
      exact ih hL (List.nodup_cons.1 h).2 i (by simpa using hi) (by omega)

/-- What is below the last element of a page is what follows the page. -/
theorem filter_below {n : ℕ} {a : α} (hL : L.Pairwise fun a b => key b < key a) (ha : (L.take n).getLast? = some a) :
    L.filter (fun b => key b < key a) = L.drop n := by
  have hsplit := List.take_append_drop n L
  rw [← hsplit] at hL
  obtain ⟨htake, hdrop, hcross⟩ := List.pairwise_append.1 hL
  have hmem : a ∈ L.take n := List.mem_of_getLast? ha
  obtain ⟨pre, hpre⟩ := List.getLast?_eq_some_iff.1 ha
  have habove : (L.take n).filter (fun b => key b < key a) = [] := by
    rw [List.filter_eq_nil_iff]
    intro b hb
    rw [hpre] at hb htake
    rcases List.mem_append.1 hb with hb | hb
    · have hlt := (List.pairwise_append.1 htake).2.2 b hb a (by simp)
      simpa using hlt.le
    · obtain rfl := List.mem_singleton.1 hb
      simp
  have hbelow : (L.drop n).filter (fun b => key b < key a) = L.drop n :=
    List.filter_eq_self.2 fun b hb => decide_eq_true (hcross a hmem b hb)
  conv_lhs => rw [← hsplit, List.filter_append, habove, hbelow, List.nil_append]

theorem Aligned.drop (h : Aligned m limit L) : Aligned m limit (L.drop limit) := by
  intro i hi hm
  rw [List.getElem_drop] at hm
  have hdvd := h (limit + i) (by rw [List.length_drop] at hi; omega) hm
  rw [Nat.add_assoc] at hdvd
  exact (Nat.dvd_add_right (dvd_refl limit)).1 hdvd

theorem Aligned.one (hm : ∀ a ∈ L, 1 ≤ m a) (h : Aligned m limit L) :
    ∀ i : ℕ, ∀ h : i < L.length, i + 1 < limit → m L[i] = 1 := by
  intro i hi hlt
  by_contra hne
  have hpos := hm L[i] (List.getElem_mem hi)
  have hle := Nat.le_of_dvd (Nat.succ_pos i) (h i hi (by omega))
  omega

/-- A list read without repetition is aligned. -/
theorem Reads.aligned {out : List α} (h : Reads key m limit L out)
    (hL : L.Pairwise fun a b => key b < key a) (hm : ∀ a ∈ L, 1 ≤ m a) (hout : out.Nodup) : Aligned m limit L := by
  induction h with
  | @last L hlen =>
    have hone := one_of_nodup (n := limit) hm (hout.sublist (List.take_sublist _ _))
    intro i hi hmany
    have hle := length_le_rows hm
    by_cases hlast : i + 1 = limit
    · exact hlast ▸ dvd_refl _
    · have h1 := hone i hi (by omega)
      omega
  | @next L out a hlen ha hrest ih =>
    have hpage := (List.nodup_append.1 hout).1
    have hone := one_of_nodup hm hpage
    rw [take_rows hm hone] at ha
    have hdrop := filter_below hL ha
    have haligned : Aligned m limit (L.drop limit) := by
      rw [← hdrop]
      exact ih (hL.sublist List.filter_sublist) (fun b hb => hm b (List.mem_of_mem_filter hb)) (List.nodup_append.1 hout).2.1
    intro i hi hmany
    by_cases hlt : i + 1 < limit
    · have h1 := hone i hi hlt
      omega
    · by_cases hlast : i + 1 = limit
      · exact hlast ▸ dvd_refl _
      · obtain ⟨j, rfl⟩ : ∃ j, i = limit + j := ⟨i - limit, by omega⟩
        have hdvd := haligned j (by rw [List.length_drop]; omega) (by rwa [List.getElem_drop])
        rw [Nat.add_assoc]
        exact Dvd.dvd.add (dvd_refl limit) hdvd

theorem Aligned.reads (hlimit : 1 ≤ limit) (h : Aligned m limit L) (hL : L.Pairwise fun a b => key b < key a)
    (hm : ∀ a ∈ L, 1 ≤ m a) : Reads key m limit L L := by
  induction hn : L.length using Nat.strong_induction_on generalizing L with
  | _ n ih =>
    have hpage := take_rows hm (h.one hm)
    by_cases hlen : (rows m L).length ≤ limit
    · have hrows : rows m L = L := by
        rw [List.take_of_length_le hlen, List.take_of_length_le ((length_le_rows hm).trans hlen)] at hpage
        exact hpage
      have hread : Reads key m limit L (rows m L) := .last hlen
      rwa [hrows] at hread
    · have hlt : limit < (rows m L).length := not_le.1 hlen
      have hne : L.take limit ≠ [] := by
        intro hnil
        rw [← hpage, List.take_eq_nil_iff] at hnil
        rcases hnil with h0 | hnil
        · omega
        · rw [hnil] at hlt
          exact absurd hlt (Nat.not_lt_zero _)
      obtain ⟨a, hlast⟩ : ∃ a, (L.take limit).getLast? = some a := ⟨_, List.getLast?_eq_some_getLast hne⟩
      have hshort : (L.drop limit).length < n := by
        rw [List.length_drop, ← hn]
        have hpos : 0 < L.length := List.length_pos_iff.2 fun h0 => hne (by rw [h0]; simp)
        omega
      have hrest := ih _ hshort h.drop (hL.sublist (List.drop_sublist _ _)) (fun b hb => hm b (List.mem_of_mem_drop hb)) rfl
      rw [← filter_below hL hlast] at hrest
      rw [← hpage] at hlast
      have hread := Reads.next hlt hlast hrest
      rw [hpage, filter_below hL (hpage ▸ hlast), List.take_append_drop] at hread
      exact hread

end Keyset
