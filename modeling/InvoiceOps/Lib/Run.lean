import Mathlib.Data.List.Infix
import Mathlib.Tactic.Common

/-! Runs of a partial step function. A state machine is given by `next`, which answers `none`
where an event is not enabled; a run is a list of events taken one after the other. The rules
below turn a fact about one step into a fact about every run. -/

namespace StateMachine

variable {S E : Type*}

/-- `Steps next s evs t`: from `s` the events `evs`, in this order, lead to `t`. -/
inductive Steps (next : S → E → Option S) (s : S) : List E → S → Prop
  | nil : Steps next s [] s
  | snoc {evs : List E} {t : S} {e : E} {t' : S} :
      Steps next s evs t → next t e = some t' → Steps next s (evs ++ [e]) t'

/-- The state a list of events leads to, or `none` when one of them is not enabled. -/
def exec (next : S → E → Option S) : S → List E → Option S
  | s, [] => some s
  | s, e :: evs => (next s e).bind fun t => exec next t evs

variable {next : S → E → Option S}

theorem Steps.trans {s t u : S} {evs evs' : List E} (h : Steps next s evs t)
    (h' : Steps next t evs' u) : Steps next s (evs ++ evs') u := by
  induction h' with
  | nil => simpa using h
  | snoc _ hn ih => rw [← List.append_assoc]; exact ih.snoc hn

theorem Steps.single {s t : S} {e : E} (h : next s e = some t) : Steps next s [e] t :=
  Steps.snoc Steps.nil h

theorem eq_ok_of_toOption {ε α : Type*} {x : Except ε α} {a : α} (h : x.toOption = some a) : x = .ok a := by
  cases x with
  | error e => cases h
  | ok b => rw [Option.some.inj h]

theorem Steps.of_exec {s t : S} {evs : List E} (h : exec next s evs = some t) :
    Steps next s evs t := by
  induction evs generalizing s with
  | nil =>
    obtain rfl : s = t := by simpa [exec] using h
    exact Steps.nil
  | cons e evs ih =>
    obtain ⟨u, hu, h⟩ := Option.bind_eq_some_iff.1 h
    exact (Steps.single hu).trans (ih h)

/-- What holds at the start and is kept by every step holds after every run. -/
theorem Steps.invariant {I : S → Prop} (hstep : ∀ s e t, I s → next s e = some t → I t)
    {s t : S} {evs : List E} (h : Steps next s evs t) (hs : I s) : I t := by
  induction h with
  | nil => exact hs
  | snoc _ hn ih => exact hstep _ _ _ ih hn

theorem Steps.invariant_of_forall {I : S → Prop} {P : E → Prop}
    (hstep : ∀ s e t, P e → I s → next s e = some t → I t)
    {s t : S} {evs : List E} (h : Steps next s evs t) (hevs : ∀ e ∈ evs, P e) (hs : I s) : I t := by
  induction h with
  | nil => exact hs
  | @snoc evs t e t' _ hn ih =>
    refine hstep _ _ _ (hevs e (by simp)) (ih fun e' he' => hevs e' ?_) hn
    exact List.mem_append_left _ he'

/-- A reflexive and transitive relation that contains every step from a state satisfying an
invariant relates the two ends of every run that starts in such a state. -/
theorem Steps.relates {I : S → Prop} {R : S → S → Prop}
    (hI : ∀ s e t, I s → next s e = some t → I t) (hrefl : ∀ s, R s s)
    (htrans : ∀ s t u, R s t → R t u → R s u)
    (hstep : ∀ s e t, I s → next s e = some t → R s t)
    {s t : S} {evs : List E} (h : Steps next s evs t) (hs : I s) : R s t := by
  induction h with
  | nil => exact hrefl _
  | snoc hrun hn ih => exact htrans _ _ _ ih (hstep _ _ _ (hrun.invariant hI hs) hn)

/-- The machine that only takes steps meeting `C`. -/
def restrict (C : S → E → Prop) [∀ s e, Decidable (C s e)] (next : S → E → Option S) (s : S) (e : E) : Option S :=
  if C s e then next s e else none

theorem restrict_eq_some {C : S → E → Prop} [∀ s e, Decidable (C s e)] {s t : S} {e : E} :
    restrict C next s e = some t ↔ C s e ∧ next s e = some t := by
  unfold restrict
  split_ifs with hC
  · simp [hC]
  · simp [hC]

theorem Steps.of_restrict {C : S → E → Prop} [∀ s e, Decidable (C s e)] {s t : S} {evs : List E}
    (h : Steps (restrict C next) s evs t) : Steps next s evs t := by
  induction h with
  | nil => exact .nil
  | snoc _ hn ih => exact ih.snoc (restrict_eq_some.1 hn).2

end StateMachine
