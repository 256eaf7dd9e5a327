import Mathlib.Data.List.Forall2
import Mathlib.Data.List.Induction
import Mathlib.Tactic.Common

/-! Hash chains: a list of entries, each with a number and the digest of the entry before it. When
digests determine entries, the last digest of a chain determines the whole chain. -/

namespace HashChain

variable {E H : Type*} (number : E → ℕ) (prev : E → Option H) (digest : E → H)

/-- The entries are numbered from `n` on, the first one points to `p` and every other one to the
digest of its predecessor. -/
def Linked : ℕ → Option H → List E → Prop
  | _, _, [] => True
  | n, p, e :: es => number e = n ∧ prev e = p ∧ Linked (n + 1) (some (digest e)) es

/-- The digest of the last entry, or `p` when there is none. -/
def lastDigest (p : Option H) (es : List E) : Option H := es.foldl (fun _ e => some (digest e)) p

variable {number prev digest}

@[simp] theorem lastDigest_nil (p : Option H) : lastDigest digest p [] = p := rfl

@[simp] theorem lastDigest_snoc (p : Option H) (es : List E) (e : E) :
    lastDigest digest p (es ++ [e]) = some (digest e) := by
  simp [lastDigest]

theorem lastDigest_eq (es : List E) : lastDigest digest none es = es.getLast?.map digest := by
  cases es using List.reverseRecOn with
  | nil => rfl
  | append_singleton es e => simp

theorem linked_snoc {n : ℕ} {p : Option H} {es : List E} {e : E} :
    Linked number prev digest n p (es ++ [e]) ↔ Linked number prev digest n p es ∧
      number e = n + es.length ∧ prev e = lastDigest digest p es := by
  induction es generalizing n p with
  | nil => simp [Linked]
  | cons a es ih =>
    have hlast : lastDigest digest p (a :: es) = lastDigest digest (some (digest a)) es := rfl
    have hlen : n + (a :: es).length = n + 1 + es.length := by simp only [List.length_cons]; omega
    simp only [List.cons_append, Linked, ih, hlast, hlen, and_assoc]

theorem Linked.numbers {n : ℕ} {p : Option H} {es : List E} (h : Linked number prev digest n p es) :
    es.map number = List.range' n es.length := by
  induction es generalizing n p with
  | nil => rfl
  | cons e es ih =>
    obtain ⟨hn, -, h⟩ := h
    rw [List.map_cons, hn, ih h, List.length_cons, List.range'_succ]

/-- Two chains with the same last digest agree entry by entry, when equal digests of their entries
mean agreement and entries that agree have the same number and the same predecessor. -/
theorem agree_of_lastDigest {R : E → E → Prop}
    (hR : ∀ e e', R e e' → number e = number e' ∧ prev e = prev e') {n : ℕ} {es es' : List E}
    (hfree : ∀ e ∈ es, ∀ e' ∈ es', digest e = digest e' → R e e')
    (h : Linked number prev digest n none es) (h' : Linked number prev digest n none es')
    (hlast : lastDigest digest none es = lastDigest digest none es') : List.Forall₂ R es es' := by
  -- from the last entry backwards: its digest fixes its number, hence the length, and its predecessor
  induction es using List.reverseRecOn generalizing es' with
  | nil =>
    cases es' using List.reverseRecOn with
    | nil => exact .nil
    | append_singleton es' e' => simp at hlast
  | append_singleton es e ih =>
    cases es' using List.reverseRecOn with
    | nil => simp at hlast
    | append_singleton es' e' =>
      obtain ⟨hes, hnum, hprev⟩ := linked_snoc.1 h
      obtain ⟨hes', hnum', hprev'⟩ := linked_snoc.1 h'
      have hee : R e e' := by
        refine hfree e (by simp) e' (by simp) ?_
        simpa using hlast
      obtain ⟨-, hsame⟩ := hR e e' hee
      have hrest : List.Forall₂ R es es' := by
        refine ih (fun a ha a' ha' => ?_) hes hes' ?_
        · exact hfree a (by simp [ha]) a' (by simp [ha'])
        · rw [← hprev, ← hprev', hsame]
      exact List.rel_append hrest (.cons hee .nil)

end HashChain
