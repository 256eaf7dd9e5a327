import Mathlib.Data.List.Basic
import Mathlib.Tactic.Common

/-! Requests under keys, sent over a network that loses them, delays them and delivers them more than once. A service keeps
a record of what it has done under the key of the request. As long as a client never uses a key for two different actions
and nobody else uses it at all, a key has at most one record, and it is one of the action the key was made for. -/

/-- A service with its records. The requests that have the same action are the ones a client may send under one key. -/
structure KeyedService (S Q K B R : Type*) where
  key : Q → K
  action : Q → B
  records : S → K → List R
  Asks : S → B → R → Prop

namespace KeyedService

variable {S Q K B R : Type*} (L : KeyedService S Q K B R)

def Keeps (s s' : S) : Prop := ∀ b r, L.Asks s b r → L.Asks s' b r

/-- The service carries out a request, or refuses it, or finds the record of the request under its key. -/
structure Handles (s : S) (q : Q) (s' : S) : Prop where
  keeps : L.Keeps s s'
  others : ∀ k ≠ L.key q, L.records s' k = L.records s k
  first : L.records s (L.key q) = [] → L.records s' (L.key q) = [] ∨
    ∃ r, L.records s' (L.key q) = [r] ∧ L.Asks s' (L.action q) r
  again : ∀ r, L.records s (L.key q) = [r] → L.Asks s (L.action q) r → L.records s' (L.key q) = [r]

def MaySend (s : S) (sent : List Q) (q : Q) : Prop :=
  (∃ p ∈ sent, L.key p = L.key q ∧ L.action p = L.action q) ∨ (∀ p ∈ sent, L.key p ≠ L.key q) ∧ L.records s (L.key q) = []

inductive Moves (s : S) (sent : List Q) : S → List Q → Prop
  | send {q : Q} : L.MaySend s sent q → Moves s sent s (sent ++ [q])
  | deliver {s' : S} {q : Q} : q ∈ sent → L.Handles s q s' → Moves s sent s' sent
  | other {s' : S} : L.Keeps s s' → (∀ q ∈ sent, L.records s' (L.key q) = L.records s (L.key q)) → Moves s sent s' sent

/-- Every key that was sent has one action, and at most one record, which is of that action. -/
structure Once (s : S) (sent : List Q) : Prop where
  agree : ∀ p ∈ sent, ∀ q ∈ sent, L.key p = L.key q → L.action p = L.action q
  records : ∀ q ∈ sent, L.records s (L.key q) = [] ∨ ∃ r, L.records s (L.key q) = [r] ∧ L.Asks s (L.action q) r

variable {L} {s s' : S} {sent sent' : List Q} {q : Q} {r : R}

theorem Once.send (h : L.Once s sent) (hsend : L.MaySend s sent q) :
    (∀ p ∈ sent, L.key p = L.key q → L.action p = L.action q) ∧
      (L.records s (L.key q) = [] ∨ ∃ r, L.records s (L.key q) = [r] ∧ L.Asks s (L.action q) r) := by
  obtain ⟨p', hp', hkey', haction⟩ | ⟨hnew, hnone⟩ := hsend
  · refine ⟨fun p hp hkey => (h.agree p hp p' hp' (hkey.trans hkey'.symm)).trans haction, ?_⟩
    rw [← hkey', ← haction]
    exact h.records p' hp'
  · exact ⟨fun p hp hkey => absurd hkey (hnew p hp), .inl hnone⟩

theorem Once.step (h : L.Once s sent) (hstep : L.Moves s sent s' sent') : L.Once s' sent' := by
  cases hstep with
  | @send q hsend =>
    obtain ⟨hagree, hrecords⟩ := h.send hsend
    refine ⟨fun p hp p' hp' hkey => ?_, fun p hp => ?_⟩
    · obtain hold | hnew := List.mem_append.1 hp
      · obtain hold' | hnew' := List.mem_append.1 hp'
        · exact h.agree p hold p' hold' hkey
        · obtain rfl := List.mem_singleton.1 hnew'
          exact hagree p hold hkey
      · obtain rfl := List.mem_singleton.1 hnew
        obtain hold' | hnew' := List.mem_append.1 hp'
        · exact (hagree p' hold' hkey.symm).symm
        · rw [List.mem_singleton.1 hnew']
    · obtain hold | hnew := List.mem_append.1 hp
      · exact h.records p hold
      · obtain rfl := List.mem_singleton.1 hnew
        exact hrecords
  | @deliver s' q hq hhandles =>
    refine ⟨h.agree, fun p hp => ?_⟩
    by_cases hkey : L.key p = L.key q
    · rw [hkey, h.agree p hp q hq hkey]
      obtain hnone | ⟨r, hr, hasks⟩ := h.records q hq
      · exact hhandles.first hnone
      · exact .inr ⟨r, hhandles.again r hr hasks, hhandles.keeps _ _ hasks⟩
    · rw [hhandles.others _ hkey]
      exact (h.records p hp).imp_right fun ⟨r, hr, hasks⟩ => ⟨r, hr, hhandles.keeps _ _ hasks⟩
  | other hkeeps hsame =>
    refine ⟨h.agree, fun p hp => ?_⟩
    rw [hsame p hp]
    exact (h.records p hp).imp_right fun ⟨r, hr, hasks⟩ => ⟨r, hr, hkeeps _ _ hasks⟩

theorem Once.stays (h : L.Once s sent) (hstep : L.Moves s sent s' sent') (hq : q ∈ sent)
    (hr : L.records s (L.key q) = [r]) : L.records s' (L.key q) = [r] := by
  cases hstep with
  | send => exact hr
  | @deliver s' q' hq' hhandles =>
    by_cases hkey : L.key q = L.key q'
    · rw [hkey] at hr ⊢
      obtain hnone | ⟨r', hr', hasks⟩ := h.records q' hq'
      · rw [hnone] at hr
        cases hr
      · obtain rfl : r' = r := (List.cons.inj (hr'.symm.trans hr)).1
        exact hhandles.again r' hr hasks
    · exact (hhandles.others _ hkey).trans hr
  | other _ hsame => exact (hsame q hq).trans hr

end KeyedService
