import Mathlib.Data.List.Basic
import Mathlib.Tactic

/-! Sections of a sequence of rows. A row may open a section, with what it says about it, or close the one that
is open; the rows between belong to the section unless they are skipped. One scanner may find the sections of
another among its own. -/

structure Scanner (ρ τ : Type*) where
  opens : Option τ → ρ → Option τ
  closes : τ → ρ → Bool
  skips : ρ → Bool

namespace Scanner

variable {ρ τ τ' : Type*}

/-- The sections of the rows when one with some rows may be open already. -/
def sections (S : Scanner ρ τ) : Option (τ × List ρ) → List ρ → List (τ × List ρ)
  | current, [] => current.toList
  | current, row :: rows =>
    match S.opens (current.map Prod.fst) row with
    | some t => current.toList ++ S.sections (some (t, [])) rows
    | none =>
      match current with
      | none => S.sections none rows
      | some (t, kept) =>
        if S.closes t row then (t, kept) :: S.sections none rows
        else if S.skips row then S.sections (some (t, kept)) rows
        else S.sections (some (t, kept ++ [row])) rows

section
variable (S : Scanner ρ τ) {current : Option (τ × List ρ)} {t : τ} {kept rows : List ρ} {row : ρ}

@[simp] theorem sections_nil : S.sections current [] = current.toList := by cases current <;> rfl

theorem sections_opens (h : S.opens (current.map Prod.fst) row = some t) :
    S.sections current (row :: rows) = current.toList ++ S.sections (some (t, [])) rows := by
  cases current <;> simp only [sections, h]

theorem sections_none (h : S.opens none row = none) : S.sections none (row :: rows) = S.sections none rows := by
  simp only [sections, Option.map_none, h]

theorem sections_some (h : S.opens (some t) row = none) : S.sections (some (t, kept)) (row :: rows) =
    if S.closes t row then (t, kept) :: S.sections none rows
    else if S.skips row then S.sections (some (t, kept)) rows
    else S.sections (some (t, kept ++ [row])) rows := by
  simp only [sections, Option.map_some, h]

theorem sections_sublist (current : Option (τ × List ρ)) (rows : List ρ) :
    ((S.sections current rows).flatMap Prod.snd).Sublist (current.toList.flatMap Prod.snd ++ rows) := by
  induction rows generalizing current with
  | nil => simp
  | cons row rows ih =>
    cases hopens : S.opens (current.map Prod.fst) row with
    | some t =>
      rw [S.sections_opens hopens, List.flatMap_append]
      exact (List.Sublist.refl _).append ((ih (some (t, []))).trans (by simp))
    | none =>
      cases current with
      | none =>
        rw [S.sections_none hopens]
        exact (ih none).trans (by simp)
      | some c =>
        obtain ⟨t, kept⟩ := c
        rw [S.sections_some hopens]
        split_ifs
        · rw [List.flatMap_cons]
          exact List.Sublist.append (by simp) ((ih none).trans (by simp))
        · refine (ih (some (t, kept))).trans ?_
          exact (List.Sublist.refl _).append (List.sublist_cons_self row rows)
        · refine (ih (some (t, kept ++ [row]))).trans ?_
          simp

theorem forall_sections {P : τ → Prop} (hopens : ∀ c row t, row ∈ rows → S.opens c row = some t → P t)
    (hcurrent : ∀ s ∈ current, P s.1) : ∀ s ∈ S.sections current rows, P s.1 := by
  induction rows generalizing current with
  | nil =>
    intro s hs
    rw [sections_nil] at hs
    exact hcurrent s (Option.mem_toList.1 hs)
  | cons row rows ih =>
    have hrest := fun c row t hrow => hopens c row t (List.mem_cons_of_mem _ hrow)
    have hnone : ∀ s ∈ (none : Option (τ × List ρ)), P s.1 := by simp
    intro s hs
    cases hrow : S.opens (current.map Prod.fst) row with
    | some t =>
      have ht := hopens _ row t (List.mem_cons_self ..) hrow
      rw [S.sections_opens hrow, List.mem_append] at hs
      rcases hs with hs | hs
      · exact hcurrent s (Option.mem_toList.1 hs)
      · exact ih hrest (by simpa using ht) s hs
    | none =>
      cases current with
      | none =>
        rw [S.sections_none hrow] at hs
        exact ih hrest hnone s hs
      | some c =>
        obtain ⟨t, kept⟩ := c
        have ht : P t := hcurrent (t, kept) rfl
        rw [S.sections_some hrow] at hs
        split_ifs at hs
        · rcases List.mem_cons.1 hs with rfl | hs
          · exact ht
          · exact ih hrest hnone s hs
        · exact ih hrest (by simpa using ht) s hs
        · exact ih hrest (by simpa using ht) s hs

end

/-- `B` opens the tables of `A` where `A` does, and others only where `A` has none open. -/
structure Extends (A : Scanner ρ τ) (B : Scanner ρ τ') (lift : τ → τ') (added : τ' → Bool) : Prop where
  lift_added : ∀ t, added (lift t) = false
  opens_lift : ∀ c c' row t, A.opens c row = some t → B.opens c' row = some (lift t)
  opens_none : ∀ c t row, A.opens c row = none → B.opens (some (lift t)) row = none
  opens_added : ∀ c c' row t', A.opens c row = none → B.opens c' row = some t' → added t' = true
  closes_lift : ∀ t row, B.closes (lift t) row = A.closes t row
  skips_eq : ∀ row, B.skips row = A.skips row

/-- The two scanners have the same table open, or the second has one of its own. -/
def Together (lift : τ → τ') (added : τ' → Bool) : Option (τ × List ρ) → Option (τ' × List ρ) → Prop
  | some (t, kept), c' => c' = some (lift t, kept)
  | none, c' => ∀ s ∈ c', added s.1 = true

/-- The sections of the first scanner are those of the second that are not its own. -/
theorem Extends.sections {A : Scanner ρ τ} {B : Scanner ρ τ'} {lift : τ → τ'} {added : τ' → Bool}
    (h : A.Extends B lift added) (rows : List ρ) : ∀ {current : Option (τ × List ρ)} {current' : Option (τ' × List ρ)},
      Together lift added current current' →
        (A.sections current rows).map (fun s => (lift s.1, s.2)) =
          (B.sections current' rows).filter fun s => !added s.1 := by
  have hadded : ∀ {c' : Option (τ' × List ρ)}, Together lift added none c' →
      c'.toList.filter (fun s => !added s.1) = [] := by
    intro c' hc
    exact List.filter_eq_nil_iff.2 fun s hs => by simp [hc s (Option.mem_toList.1 hs)]
  induction rows with
  | nil =>
    intro current current' hto
    rw [sections_nil, sections_nil]
    cases current with
    | none => exact (hadded hto).symm
    | some c =>
      obtain rfl := hto
      simp [h.lift_added]
  | cons row rows ih =>
    intro current current' hto
    cases hrow : A.opens (current.map Prod.fst) row with
    | some t =>
      rw [A.sections_opens hrow, B.sections_opens (h.opens_lift _ (current'.map Prod.fst) row t hrow), List.map_append,
        List.filter_append, @ih (some (t, [])) _ rfl]
      congr 1
      cases current with
      | none => exact (hadded hto).symm
      | some c =>
        obtain rfl := hto
        simp [h.lift_added]
    | none =>
      cases current with
      | some c =>
        obtain ⟨t, kept⟩ := c
        obtain rfl := hto
        rw [A.sections_some hrow, B.sections_some (h.opens_none _ t row hrow), h.closes_lift, h.skips_eq]
        split_ifs
        · rw [List.map_cons, List.filter_cons_of_pos (by simp [h.lift_added]), @ih none none (by simp [Together])]
        · exact ih rfl
        · exact ih rfl
      | none =>
        rw [A.sections_none hrow]
        cases hrow' : B.opens (current'.map Prod.fst) row with
        | some t' =>
          rw [B.sections_opens hrow', List.filter_append, hadded hto, List.nil_append]
          exact ih fun s hs => by
            obtain rfl := Option.mem_some_iff.1 hs
            exact h.opens_added _ _ row t' hrow hrow'
        | none =>
          cases current' with
          | none =>
            rw [B.sections_none hrow']
            exact ih hto
          | some c' =>
            obtain ⟨t', kept⟩ := c'
            have ht' : added t' = true := hto (t', kept) rfl
            have hkeep : ∀ kept', Together lift added (none : Option (τ × List ρ)) (some (t', kept')) := by
              intro kept' s hs
              obtain rfl := Option.mem_some_iff.1 hs
              exact ht'
            rw [B.sections_some hrow']
            split_ifs
            · rw [List.filter_cons_of_neg (by simp [ht'])]
              exact ih (by simp [Together])
            · exact ih (hkeep kept)
            · exact ih (hkeep _)

end Scanner
