import InvoiceOps.Schemas.Extraction
import Mathlib.Data.List.Dedup

/-! The choice between candidates for one field (`extraction/candidates.py`). Only the candidates of the highest
priority count; they are grouped by a key, and the field is extracted when there is one group. Neither the order
of the candidates nor those of lower priority matter for the status, the key and the evidence. -/

namespace InvoiceOps

structure FieldCandidate (T : Type) where
  value : T
  evidence : List EvidenceSpan
  ruleId : String
  priority : ℤ
  evidence_ne_nil : evidence ≠ []

variable {T κ : Type} [DecidableEq κ]

def EvidenceSpan.key (span : EvidenceSpan) : ℕ × ℚ × ℚ × ℚ × ℚ × String × TextSource :=
  (span.page, span.bbox.x0, span.bbox.y0, span.bbox.x1, span.bbox.y1, span.text, span.source)

def uniqueFrom (seen : List (ℕ × ℚ × ℚ × ℚ × ℚ × String × TextSource)) : List EvidenceSpan → List EvidenceSpan
  | [] => []
  | span :: spans => if span.key ∈ seen then uniqueFrom seen spans else span :: uniqueFrom (span.key :: seen) spans

def uniqueEvidence (spans : List EvidenceSpan) : List EvidenceSpan := uniqueFrom [] spans

theorem EvidenceSpan.key_inj {a b : EvidenceSpan} (h : a.key = b.key) : a = b := by
  obtain ⟨page, ⟨x0, y0, x1, y1, _, _⟩, text, source⟩ := a
  obtain ⟨page', ⟨x0', y0', x1', y1', _, _⟩, text', source'⟩ := b
  simp only [key, Prod.mk.injEq] at h
  obtain ⟨rfl, rfl, rfl, rfl, rfl, rfl, rfl⟩ := h
  rfl

theorem mem_uniqueFrom {seen : List (ℕ × ℚ × ℚ × ℚ × ℚ × String × TextSource)} {spans : List EvidenceSpan}
    {span : EvidenceSpan} : span ∈ uniqueFrom seen spans ↔ span ∈ spans ∧ span.key ∉ seen := by
  induction spans generalizing seen with
  | nil => simp [uniqueFrom]
  | cons first spans ih =>
    rw [uniqueFrom]
    split_ifs with hseen
    · rw [ih, List.mem_cons]
      constructor
      · rintro ⟨hmem, hnot⟩
        exact ⟨Or.inr hmem, hnot⟩
      · rintro ⟨rfl | hmem, hnot⟩
        · exact absurd hseen hnot
        · exact ⟨hmem, hnot⟩
    · rw [List.mem_cons, ih, List.mem_cons, List.mem_cons]
      constructor
      · rintro (rfl | ⟨hmem, hnot⟩)
        · exact ⟨Or.inl rfl, hseen⟩
        · exact ⟨Or.inr hmem, fun h => hnot (Or.inr h)⟩
      · rintro ⟨rfl | hmem, hnot⟩
        · exact Or.inl rfl
        · by_cases heq : span.key = first.key
          · exact Or.inl (EvidenceSpan.key_inj heq)
          · exact Or.inr ⟨hmem, fun h => h.elim heq hnot⟩

theorem nodup_uniqueFrom (seen : List (ℕ × ℚ × ℚ × ℚ × ℚ × String × TextSource)) (spans : List EvidenceSpan) :
    (uniqueFrom seen spans).Nodup := by
  induction spans generalizing seen with
  | nil => exact List.nodup_nil
  | cons first spans ih =>
    rw [uniqueFrom]
    split_ifs
    · exact ih seen
    · rw [List.nodup_cons, mem_uniqueFrom]
      exact ⟨fun h => h.2 (List.mem_cons_self ..), ih _⟩

theorem mem_uniqueEvidence {spans : List EvidenceSpan} {span : EvidenceSpan} : span ∈ uniqueEvidence spans ↔ span ∈ spans := by
  simp [uniqueEvidence, mem_uniqueFrom]

theorem uniqueEvidence_ne_nil {spans : List EvidenceSpan} (h : spans ≠ []) : uniqueEvidence spans ≠ [] := by
  obtain ⟨span, hspan⟩ := List.exists_mem_of_ne_nil spans h
  exact List.ne_nil_of_mem (mem_uniqueEvidence.2 hspan)

/-- The candidates of one key, in their order. -/
structure CandidateGroup (T κ : Type) where
  key : κ
  first : FieldCandidate T
  rest : List (FieldCandidate T)

def CandidateGroup.evidence (g : CandidateGroup T κ) : List EvidenceSpan :=
  (g.first :: g.rest).flatMap (·.evidence)

omit [DecidableEq κ] in
theorem CandidateGroup.evidence_ne_nil (g : CandidateGroup T κ) : g.evidence ≠ [] := by
  simp [evidence, g.first.evidence_ne_nil]

/-- `grouped.setdefault(key, []).append(candidate)` -/
def addCandidate (comparisonKey : T → κ) (grouped : List (CandidateGroup T κ)) (candidate : FieldCandidate T) :
    List (CandidateGroup T κ) :=
  match grouped with
  | [] => [⟨comparisonKey candidate.value, candidate, []⟩]
  | g :: groups =>
    if g.key = comparisonKey candidate.value then { g with rest := g.rest ++ [candidate] } :: groups
    else g :: addCandidate comparisonKey groups candidate

def groupCandidates (comparisonKey : T → κ) (top : List (FieldCandidate T)) : List (CandidateGroup T κ) :=
  top.foldl (addCandidate comparisonKey) []

def highestPriority (candidates : List (FieldCandidate T)) : Option ℤ := (candidates.map (·.priority)).max?

def topCandidates (candidates : List (FieldCandidate T)) : List (FieldCandidate T) :=
  candidates.filter fun candidate => some candidate.priority = highestPriority candidates

def resolveCandidates (candidates : List (FieldCandidate T)) (comparisonKey : T → κ) (ambiguousRuleId : String) :
    ExtractedField T :=
  if candidates = [] then ⟨none, .missing, [], none, by simp, by simp⟩
  else
    let top := topCandidates candidates
    match groupCandidates comparisonKey top, top with
    | [sameValue], selected :: _ => ⟨some selected.value, .extracted, uniqueEvidence sameValue.evidence,
        some selected.ruleId, fun _ => ⟨rfl, uniqueEvidence_ne_nil sameValue.evidence_ne_nil⟩, by simp⟩
    | _, _ => ⟨none, .ambiguous, uniqueEvidence (top.flatMap (·.evidence)), some ambiguousRuleId, by simp, by simp⟩

section
variable {comparisonKey : T → κ}

theorem keys_addCandidate {grouped : List (CandidateGroup T κ)} {candidate : FieldCandidate T} {k : κ} :
    k ∈ (addCandidate comparisonKey grouped candidate).map (·.key) ↔
      k ∈ grouped.map (·.key) ∨ k = comparisonKey candidate.value := by
  induction grouped with
  | nil => simp [addCandidate]
  | cons g groups ih =>
    rw [addCandidate]
    split_ifs with hkey
    · rw [List.map_cons, List.map_cons, List.mem_cons, ← hkey]
      exact ⟨Or.inl, fun h => h.elim id Or.inl⟩
    · rw [List.map_cons, List.map_cons, List.mem_cons, List.mem_cons, ih, or_assoc]

theorem keys_foldl_addCandidate {top : List (FieldCandidate T)} {grouped : List (CandidateGroup T κ)} {k : κ} :
    k ∈ (top.foldl (addCandidate comparisonKey) grouped).map (·.key) ↔
      k ∈ grouped.map (·.key) ∨ ∃ c ∈ top, comparisonKey c.value = k := by
  induction top generalizing grouped with
  | nil => simp
  | cons c top ih =>
    rw [List.foldl_cons, ih, keys_addCandidate, List.exists_mem_cons_iff, or_assoc]
    constructor
    · rintro (h | rfl | h)
      · exact Or.inl h
      · exact Or.inr (Or.inl rfl)
      · exact Or.inr (Or.inr h)
    · rintro (h | rfl | h)
      · exact Or.inl h
      · exact Or.inr (Or.inl rfl)
      · exact Or.inr (Or.inr h)

/-- Candidates of the key of a group stay in the group. -/
theorem foldl_addCandidate_same {top : List (FieldCandidate T)} {g : CandidateGroup T κ}
    (h : ∀ c ∈ top, comparisonKey c.value = g.key) :
    top.foldl (addCandidate comparisonKey) [g] = [{ g with rest := g.rest ++ top }] := by
  induction top generalizing g with
  | nil => simp
  | cons c top ih =>
    obtain ⟨hc, htop⟩ := List.forall_mem_cons.1 h
    have hadd : addCandidate comparisonKey [g] c = [{ g with rest := g.rest ++ [c] }] := by
      rw [addCandidate, if_pos hc.symm]
    have htail := ih (g := { g with rest := g.rest ++ [c] }) htop
    rw [List.foldl_cons, hadd, htail]
    simp

/-- There is one group exactly when all candidates have one key, and then it has them all. -/
theorem groupCandidates_one {first : FieldCandidate T} {rest : List (FieldCandidate T)}
    (h : ∀ c ∈ rest, comparisonKey c.value = comparisonKey first.value) :
    groupCandidates comparisonKey (first :: rest) = [⟨comparisonKey first.value, first, rest⟩] := by
  rw [groupCandidates, List.foldl_cons]
  exact foldl_addCandidate_same (g := ⟨comparisonKey first.value, first, []⟩) h

theorem keys_eq_of_groupCandidates {top : List (FieldCandidate T)} {g : CandidateGroup T κ}
    (h : groupCandidates comparisonKey top = [g]) : ∀ c ∈ top, comparisonKey c.value = g.key := by
  intro c hc
  have hmem : comparisonKey c.value ∈ (groupCandidates comparisonKey top).map (·.key) :=
    keys_foldl_addCandidate.2 (Or.inr ⟨c, hc, rfl⟩)
  rw [h] at hmem
  simpa using hmem

theorem mem_topCandidates {candidates : List (FieldCandidate T)} {c : FieldCandidate T} :
    c ∈ topCandidates candidates ↔ c ∈ candidates ∧ ∀ d ∈ candidates, d.priority ≤ c.priority := by
  rw [topCandidates, List.mem_filter, decide_eq_true_iff, eq_comm, highestPriority, List.max?_eq_some_iff, List.mem_map,
    List.forall_mem_map]
  constructor
  · rintro ⟨hc, -, hmax⟩
    exact ⟨hc, hmax⟩
  · rintro ⟨hc, hmax⟩
    exact ⟨hc, ⟨c, hc, rfl⟩, hmax⟩

theorem topCandidates_ne_nil {candidates : List (FieldCandidate T)} (h : candidates ≠ []) : topCandidates candidates ≠ [] := by
  obtain ⟨highest, hhighest⟩ : ∃ p, highestPriority candidates = some p :=
    Option.isSome_iff_exists.1 (by simpa [highestPriority, List.isSome_max?_iff] using h)
  obtain ⟨c, hc, hpriority⟩ := List.mem_map.1 (List.max?_mem hhighest)
  refine List.ne_nil_of_mem (List.mem_filter.2 ⟨hc, ?_⟩)
  rw [decide_eq_true_iff, hhighest, hpriority]

/-- Candidates below one of the others do not count. -/
theorem mem_topCandidates_of_perm {candidates lower candidates' : List (FieldCandidate T)}
    (hperm : candidates'.Perm (candidates ++ lower)) (hlower : ∀ c ∈ lower, ∃ d ∈ candidates, c.priority < d.priority)
    (c : FieldCandidate T) : c ∈ topCandidates candidates' ↔ c ∈ topCandidates candidates := by
  simp only [mem_topCandidates, hperm.mem_iff, List.mem_append]
  constructor
  · rintro ⟨hc | hc, hmax⟩
    · exact ⟨hc, fun d hd => hmax d (Or.inl hd)⟩
    · obtain ⟨d, hd, hlt⟩ := hlower c hc
      exact absurd (hmax d (Or.inl hd)) (not_le.2 hlt)
  · rintro ⟨hc, hmax⟩
    refine ⟨Or.inl hc, ?_⟩
    rintro d (hd | hd)
    · exact hmax d hd
    · obtain ⟨e, he, hlt⟩ := hlower d hd
      exact hlt.le.trans (hmax e he)

def KeysAgree (comparisonKey : T → κ) (candidates : List (FieldCandidate T)) : Prop :=
  ∀ c ∈ topCandidates candidates, ∀ d ∈ topCandidates candidates, comparisonKey c.value = comparisonKey d.value

/-- What is said of a result about the candidates it comes from. -/
structure Resolved (comparisonKey : T → κ) (candidates : List (FieldCandidate T)) (field : ExtractedField T) : Prop where
  missing : candidates = [] → field.status = .missing
  extracted : candidates ≠ [] → KeysAgree comparisonKey candidates → field.status = .extracted
  ambiguous : candidates ≠ [] → ¬KeysAgree comparisonKey candidates → field.status = .ambiguous
  value : ∀ v, field.value = some v → ∀ c ∈ topCandidates candidates, comparisonKey v = comparisonKey c.value
  value_iff : field.value.isSome ↔ field.status = .extracted
  evidence_nodup : field.evidence.Nodup
  evidence : ∀ span, span ∈ field.evidence ↔ ∃ c ∈ topCandidates candidates, span ∈ c.evidence

theorem resolved (candidates : List (FieldCandidate T)) (comparisonKey : T → κ) (ambiguousRuleId : String) :
    Resolved comparisonKey candidates (resolveCandidates candidates comparisonKey ambiguousRuleId) := by
  by_cases hnil : candidates = []
  · subst hnil
    rw [resolveCandidates, if_pos rfl]
    exact ⟨fun _ => rfl, fun h => absurd rfl h, fun h => absurd rfl h, by simp, by simp, List.nodup_nil,
      by simp [topCandidates]⟩
  · rw [resolveCandidates, if_neg hnil]
    have htop := topCandidates_ne_nil hnil
    obtain ⟨first, rest, hfirst⟩ := List.exists_cons_of_ne_nil htop
    simp only [hfirst]
    by_cases hagree : KeysAgree comparisonKey candidates
    · have hkeys : ∀ c ∈ first :: rest, comparisonKey c.value = comparisonKey first.value := by
        intro c hc
        rw [← hfirst] at hc
        exact hagree c hc first (by rw [hfirst]; exact List.mem_cons_self ..)
      simp only [groupCandidates_one (List.forall_mem_cons.1 hkeys).2]
      refine ⟨fun h => absurd h hnil, fun _ _ => rfl, fun _ h => absurd hagree h, ?_, by simp, nodup_uniqueFrom _ _, ?_⟩
      · rintro v hv c hc
        obtain rfl := Option.some.inj hv
        rw [hfirst] at hc
        exact (hkeys c hc).symm
      · intro span
        rw [mem_uniqueEvidence, CandidateGroup.evidence, List.mem_flatMap, hfirst]
    · have hmany : ∀ g, groupCandidates comparisonKey (first :: rest) ≠ [g] := by
        intro g hg
        rw [← hfirst] at hg
        have hkeys := keys_eq_of_groupCandidates hg
        exact hagree fun c hc d hd => (hkeys c hc).trans (hkeys d hd).symm
      split
      · rename_i g _ _ hg _
        exact absurd hg (hmany g)
      · refine ⟨fun h => absurd h hnil, fun _ h => absurd h hagree, fun _ _ => rfl, by simp, by simp, nodup_uniqueFrom _ _, ?_⟩
        intro span
        rw [mem_uniqueEvidence, List.mem_flatMap, hfirst]

/-- Two fields agree in their status, in the key of their value and in their set of evidence. -/
def SameResolution (comparisonKey : T → κ) (a b : ExtractedField T) : Prop :=
  a.status = b.status ∧ a.value.map comparisonKey = b.value.map comparisonKey ∧ ∀ span, span ∈ a.evidence ↔ span ∈ b.evidence

omit [DecidableEq κ] in
theorem Resolved.same {candidates candidates' : List (FieldCandidate T)} {a b : ExtractedField T}
    (ha : Resolved comparisonKey candidates a) (hb : Resolved comparisonKey candidates' b)
    (hnil : candidates = [] ↔ candidates' = [])
    (htop : ∀ c, c ∈ topCandidates candidates' ↔ c ∈ topCandidates candidates) : SameResolution comparisonKey a b := by
  have hagree : KeysAgree comparisonKey candidates ↔ KeysAgree comparisonKey candidates' := by
    simp only [KeysAgree, htop]
  have hstatus : a.status = b.status := by
    by_cases h : candidates = []
    · rw [ha.missing h, hb.missing (hnil.1 h)]
    · have h' : candidates' ≠ [] := fun h' => h (hnil.2 h')
      by_cases hkeys : KeysAgree comparisonKey candidates
      · rw [ha.extracted h hkeys, hb.extracted h' (hagree.1 hkeys)]
      · rw [ha.ambiguous h hkeys, hb.ambiguous h' fun hkeys' => hkeys (hagree.2 hkeys')]
  refine ⟨hstatus, ?_, ?_⟩
  · have hsome : a.value.isSome ↔ b.value.isSome := by rw [ha.value_iff, hb.value_iff, hstatus]
    cases hva : a.value with
    | none =>
      rw [hva] at hsome
      rw [Option.not_isSome_iff_eq_none.1 fun h => absurd (hsome.2 h) (by simp)]
    | some v =>
      rw [hva] at hsome
      obtain ⟨w, hw⟩ := Option.isSome_iff_exists.1 (hsome.1 rfl)
      have hne : candidates ≠ [] := by
        intro h
        have hextracted := ha.value_iff.1 (by rw [hva]; rfl)
        rw [ha.missing h] at hextracted
        cases hextracted
      obtain ⟨c, hc⟩ := List.exists_mem_of_ne_nil _ (topCandidates_ne_nil hne)
      rw [hw, Option.map_some, Option.map_some, ha.value v hva c hc, hb.value w hw c ((htop c).2 hc)]
  · intro span
    rw [ha.evidence, hb.evidence]
    simp only [htop]

end

/-- A field is extracted exactly when there are candidates and those of the highest priority have one key, the key
of its value. Its evidence is the union of theirs, each span once. Neither another order nor candidates of lower
priority, added or removed, change the status, the key or the set of evidence. -/
theorem resolveCandidates_law (candidates : List (FieldCandidate T)) (comparisonKey : T → κ) (ambiguousRuleId : String) :
    ((resolveCandidates candidates comparisonKey ambiguousRuleId).status = .extracted ↔
      candidates ≠ [] ∧ KeysAgree comparisonKey candidates) ∧
    ((resolveCandidates candidates comparisonKey ambiguousRuleId).status = .extracted →
      ∃ v, (resolveCandidates candidates comparisonKey ambiguousRuleId).value = some v ∧
        ∀ c ∈ topCandidates candidates, comparisonKey v = comparisonKey c.value) ∧
    (∀ lower candidates', candidates'.Perm (candidates ++ lower) →
      (∀ c ∈ lower, ∃ d ∈ candidates, c.priority < d.priority) →
      SameResolution comparisonKey (resolveCandidates candidates comparisonKey ambiguousRuleId)
        (resolveCandidates candidates' comparisonKey ambiguousRuleId)) ∧
    (resolveCandidates candidates comparisonKey ambiguousRuleId).evidence.Nodup ∧
    ∀ span, span ∈ (resolveCandidates candidates comparisonKey ambiguousRuleId).evidence ↔
      ∃ c ∈ topCandidates candidates, span ∈ c.evidence := by
  have hresolved := resolved candidates comparisonKey ambiguousRuleId
  refine ⟨⟨fun h => ?_, fun h => hresolved.extracted h.1 h.2⟩, fun h => ?_, fun lower candidates' hperm hlower => ?_,
    hresolved.evidence_nodup, hresolved.evidence⟩
  · by_cases hnil : candidates = []
    · rw [hresolved.missing hnil] at h
      cases h
    · refine ⟨hnil, ?_⟩
      by_contra hkeys
      rw [hresolved.ambiguous hnil hkeys] at h
      cases h
  · obtain ⟨v, hv⟩ := Option.isSome_iff_exists.1 (hresolved.value_iff.2 h)
    exact ⟨v, hv, hresolved.value v hv⟩
  · refine hresolved.same (resolved candidates' comparisonKey ambiguousRuleId) ?_ (mem_topCandidates_of_perm hperm hlower)
    constructor
    · rintro rfl
      have hnone : lower = [] := List.eq_nil_iff_forall_not_mem.2 fun c hc => by simpa using hlower c hc
      rw [hnone] at hperm
      exact hperm.eq_nil
    · rintro rfl
      exact (List.append_eq_nil_iff.1 hperm.symm.eq_nil).1

end InvoiceOps
