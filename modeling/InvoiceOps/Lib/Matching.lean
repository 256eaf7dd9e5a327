import Mathlib.Data.Fintype.Order
import Mathlib.Data.List.Nodup
import Mathlib.Data.List.Infix
import Mathlib.Tactic.Common

/-! One-to-one selections from a list of edges. The greedy pass goes through the edges once and
keeps an edge when neither of its ends is used; the result is one-to-one and cannot be extended
by any edge it passed over. Where the list ranks the edges, every edge left out shares an end with one that
comes before it; there is at most one set of edges of which this holds. -/

namespace GreedyMatching

variable {α ι κ : Type*} [DecidableEq ι] [DecidableEq κ] (left : α → ι) (right : α → κ)

/-- No two selected edges share an end. -/
structure OneToOne (sel : List α) : Prop where
  left : (sel.map left).Nodup
  right : (sel.map right).Nodup

/-- One end of the edge is used already. -/
def Blocked (sel : List α) (e : α) : Prop := left e ∈ sel.map left ∨ right e ∈ sel.map right

instance (sel : List α) (e : α) : Decidable (Blocked left right sel e) :=
  inferInstanceAs (Decidable (left e ∈ sel.map left ∨ right e ∈ sel.map right))

def pick (sel : List α) (e : α) : List α :=
  if Blocked left right sel e then sel else sel ++ [e]

def greedy (sel edges : List α) : List α := edges.foldl (pick left right) sel

variable {left right}

omit [DecidableEq ι] [DecidableEq κ] in
theorem OneToOne.nil : OneToOne left right [] := ⟨by simp, by simp⟩

omit [DecidableEq ι] [DecidableEq κ] in
theorem OneToOne.snoc {sel : List α} {e : α} (h : OneToOne left right sel)
    (hl : left e ∉ sel.map left) (hr : right e ∉ sel.map right) :
    OneToOne left right (sel ++ [e]) := by
  constructor
  · rw [List.map_append, List.map_singleton, ← List.concat_eq_append]
    exact h.left.concat hl
  · rw [List.map_append, List.map_singleton, ← List.concat_eq_append]
    exact h.right.concat hr

theorem greedy_oneToOne {sel : List α} (edges : List α) (h : OneToOne left right sel) :
    OneToOne left right (greedy left right sel edges) := by
  induction edges generalizing sel with
  | nil => exact h
  | cons e edges ih =>
    apply ih
    unfold pick
    split_ifs with hb
    · exact h
    · exact h.snoc (fun hl => hb (Or.inl hl)) (fun hr => hb (Or.inr hr))

theorem prefix_greedy (sel edges : List α) : sel <+: greedy left right sel edges := by
  induction edges generalizing sel with
  | nil => exact List.prefix_refl _
  | cons e edges ih =>
    refine List.IsPrefix.trans ?_ (ih (pick left right sel e))
    unfold pick
    split_ifs
    · exact List.prefix_refl _
    · exact List.prefix_append _ _

theorem mem_of_mem_greedy {sel edges : List α} {e : α} (h : e ∈ greedy left right sel edges) :
    e ∈ sel ∨ e ∈ edges := by
  induction edges generalizing sel with
  | nil => exact Or.inl h
  | cons a edges ih =>
    rcases ih h with h | h
    · unfold pick at h
      split_ifs at h
      · exact Or.inl h
      · rcases List.mem_append.1 h with h | h
        · exact Or.inl h
        · exact Or.inr (by simp [List.mem_singleton.1 h])
    · exact Or.inr (List.mem_cons_of_mem _ h)

omit [DecidableEq ι] [DecidableEq κ] in
theorem Blocked.mono {sel sel' : List α} {e : α} (h : Blocked left right sel e)
    (hs : sel ⊆ sel') : Blocked left right sel' e := by
  rcases h with h | h
  · exact Or.inl (List.map_subset left hs h)
  · exact Or.inr (List.map_subset right hs h)

/-- Every edge the pass has seen ends in a used vertex: nothing can be added. -/
theorem blocked_greedy {sel edges : List α} {e : α} (h : e ∈ edges) :
    Blocked left right (greedy left right sel edges) e := by
  induction edges generalizing sel with
  | nil => simp at h
  | cons a edges ih =>
    rcases List.mem_cons.1 h with rfl | h
    · have hpick : Blocked left right (pick left right sel e) e := by
        unfold pick
        split_ifs with hb
        · exact hb
        · exact Or.inl (by simp)
      exact hpick.mono (prefix_greedy _ edges).subset
    · exact ih h

/-- The pass goes along with any renaming of the edges that keeps their ends apart, whatever the order of the edges
it starts from. -/
theorem greedy_map_perm {β ι' κ' : Type*} [DecidableEq ι'] [DecidableEq κ'] {left' : β → ι'} {right' : β → κ'}
    {f : α → β} {g : ι → ι'} {k : κ → κ'} (hg : Function.Injective g) (hk : Function.Injective k)
    (hleft : ∀ a, left' (f a) = g (left a)) (hright : ∀ a, right' (f a) = k (right a)) {sel : List α} {sel' : List β}
    (h : sel'.Perm (sel.map f)) (edges : List α) :
    (greedy left' right' sel' (edges.map f)).Perm ((greedy left right sel edges).map f) := by
  induction edges generalizing sel sel' with
  | nil => exact h
  | cons e edges ih =>
    have hl : left' (f e) ∈ sel'.map left' ↔ left e ∈ sel.map left := by
      rw [(h.map left').mem_iff, List.map_map, hleft, show left' ∘ f = g ∘ left from funext hleft, ← List.map_map,
        List.mem_map_of_injective hg]
    have hr : right' (f e) ∈ sel'.map right' ↔ right e ∈ sel.map right := by
      rw [(h.map right').mem_iff, List.map_map, hright, show right' ∘ f = k ∘ right from funext hright, ← List.map_map,
        List.mem_map_of_injective hk]
    have hblocked : Blocked left' right' sel' (f e) ↔ Blocked left right sel e := or_congr hl hr
    apply ih
    unfold pick
    by_cases hb : Blocked left right sel e
    · rw [if_pos hb, if_pos (hblocked.2 hb)]
      exact h
    · rw [if_neg hb, if_neg fun hb' => hb (hblocked.1 hb'), List.map_append]
      exact h.append_right _

/-- An edge the pass left out shares an end with one taken before it, or with one it started from. -/
theorem exists_before_of_notMem_greedy {r : α → α → Prop} {sel edges : List α} {e : α} (hsorted : edges.Pairwise r)
    (he : e ∈ edges) (hout : e ∉ greedy left right sel edges) :
    ∃ e' ∈ greedy left right sel edges, (left e' = left e ∨ right e' = right e) ∧ (e' ∈ sel ∨ r e' e) := by
  induction edges generalizing sel with
  | nil => cases he
  | cons a edges ih =>
    obtain ⟨hfirst, hrest⟩ := List.pairwise_cons.1 hsorted
    have hkeep : pick left right sel a ⊆ greedy left right sel (a :: edges) := (prefix_greedy _ edges).subset
    rcases List.mem_cons.1 he with rfl | hmem
    · have hblocked : Blocked left right sel e := by
        by_contra hfree
        exact hout (hkeep (by simp [pick, hfree]))
      have hsel : sel ⊆ greedy left right sel (e :: edges) := (prefix_greedy sel _).subset
      rcases hblocked with hl | hr
      · obtain ⟨e', he', hl⟩ := List.mem_map.1 hl
        exact ⟨e', hsel he', .inl hl, .inl he'⟩
      · obtain ⟨e', he', hr⟩ := List.mem_map.1 hr
        exact ⟨e', hsel he', .inr hr, .inl he'⟩
    · obtain ⟨e', he', hshare, hbefore⟩ := ih hrest hmem hout
      refine ⟨e', he', hshare, ?_⟩
      rcases hbefore with hpicked | hr
      · have hcases : e' ∈ sel ∨ e' = a := by
          unfold pick at hpicked
          split_ifs at hpicked
          · exact .inl hpicked
          · simpa using hpicked
        rcases hcases with hsel | rfl
        · exact .inl hsel
        · exact .inr (hfirst e hmem)
      · exact .inr hr

section

variable {ι κ β : Type*} [Preorder β]

/-- A one-to-one set of eligible edges such that every eligible edge left out shares an end with one of the set that
comes before it. -/
structure Stable (key : ι × κ → β) (eligible S : Set (ι × κ)) : Prop where
  subset : S ⊆ eligible
  left : Set.InjOn Prod.fst S
  right : Set.InjOn Prod.snd S
  blocked : ∀ e ∈ eligible, e ∉ S → ∃ e' ∈ S, (e'.1 = e.1 ∨ e'.2 = e.2) ∧ key e' < key e

/-- The first edge in which two stable sets differ is blocked in one of them by an edge of both. -/
theorem Stable.unique [Finite ι] [Finite κ] {key : ι × κ → β} {eligible S S' : Set (ι × κ)}
    (h : Stable key eligible S) (h' : Stable key eligible S') : S = S' := by
  have hmem : ∀ {A B : Set (ι × κ)}, Stable key eligible A → Stable key eligible B → ∀ e,
      (∀ e', key e' < key e → (e' ∈ A ↔ e' ∈ B)) → e ∈ A → e ∈ B := by
    intro A B hA hB e hbefore heA
    by_contra heB
    obtain ⟨e', he'B, hshare, hlt⟩ := hB.blocked e (hA.subset heA) heB
    have he'A : e' ∈ A := (hbefore e' hlt).2 he'B
    have hsame : e' = e := hshare.elim (hA.left he'A heA) (hA.right he'A heA)
    exact absurd hlt (hsame ▸ lt_irrefl _)
  have htrans : IsTrans (ι × κ) fun e e' => key e < key e' := ⟨fun _ _ _ => lt_trans⟩
  have hirrefl : Std.Irrefl fun e e' : ι × κ => key e < key e' := ⟨fun _ => lt_irrefl _⟩
  have hwf : WellFounded fun e e' : ι × κ => key e < key e' := Finite.wellFounded_of_trans_of_irrefl _
  ext e
  induction e using hwf.induction with
  | _ e ih =>
    constructor
    · exact hmem h h' e ih
    · exact hmem h' h e fun e' hlt => (ih e' hlt).symm

end

end GreedyMatching
