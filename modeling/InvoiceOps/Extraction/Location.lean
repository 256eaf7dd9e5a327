import InvoiceOps.Extraction.Grounding

/-! Where a grounded quote lies (`extraction/hybrid/grounding.py`). The search runs over the parts of all words of
the page, each with the word it belongs to; a window of parts that starts and ends at a word boundary consists of
the parts of consecutive words. A grounded result has exactly one such window, exact or else the best fuzzy one, and
its value is read from exactly one run of whole words inside it. -/

namespace InvoiceOps

section

variable {n : ℕ}

def positionsBetween (n left right : ℕ) : List (Fin n) :=
  (List.finRange n).filter fun i => decide (left ≤ i.val ∧ i.val < right)

theorem map_get_positionsBetween {α : Type} (xs : List α) (left right : ℕ) :
    (positionsBetween xs.length left right).map xs.get = slice xs left right := by
  unfold positionsBetween
  induction xs generalizing left right with
  | nil => simp [slice]
  | cons x xs ih =>
    have htail : ((List.finRange xs.length).filter
        ((fun i : Fin (xs.length + 1) => decide (left ≤ i.val ∧ i.val < right)) ∘ Fin.succ)).map xs.get =
          slice xs (left - 1) (right - 1) := by
      rw [← ih]
      refine congrArg (List.map xs.get) (List.filter_congr fun i _ => ?_)
      simp only [Function.comp_apply, Fin.val_succ, decide_eq_decide]
      omega
    have hget : (x :: xs).get ∘ Fin.succ = xs.get := funext fun i => rfl
    change ((List.finRange (xs.length + 1)).filter fun i => decide (left ≤ i.val ∧ i.val < right)).map (x :: xs).get = _
    rw [List.finRange_succ, List.filter_cons, List.filter_map]
    cases left with
    | zero =>
      cases right with
      | zero => simp [slice]
      | succ right => simpa [slice, hget] using htail
    | succ left =>
      have hlen : right - (left + 1) = right - 1 - left := by omega
      simpa [slice, hget, hlen] using htail

theorem pairwise_pageStream (U : Unicode) (words : List WordToken) :
    (pageStream U words).Pairwise fun a b => a.2 ≤ b.2 := by
  rw [pageStream, List.pairwise_flatMap]
  refine ⟨fun i _ => ?_, (List.pairwise_lt_finRange words.length).imp fun {i k} hik => ?_⟩
  · rw [List.pairwise_map]
    exact List.pairwise_of_forall fun _ _ => le_rfl
  · intro a ha b hb
    obtain ⟨_, -, rfl⟩ := List.mem_map.1 ha
    obtain ⟨_, -, rfl⟩ := List.mem_map.1 hb
    exact hik.le

/-- The parts that belong to the words between two positions are the parts of these words. -/
theorem parts_between (U : Unicode) (words : List WordToken) (left right : ℕ) :
    ((pageStream U words).filter fun a => decide (left ≤ a.2.val ∧ a.2.val < right)).map (·.1) =
      (slice words left right).flatMap fun w => parts U w.text := by
  rw [← map_get_positionsBetween, List.flatMap_map, pageStream, positionsBetween, List.filter_flatMap, List.map_flatMap]
  induction List.finRange words.length with
  | nil => rfl
  | cons i is ih =>
    rw [List.flatMap_cons, ih, List.filter_cons]
    split_ifs with hi
    · rw [decide_eq_true_eq] at hi
      simp [hi, List.filter_map, Function.comp_def]
    · rw [decide_eq_true_eq] at hi
      simp [hi, List.filter_map, Function.comp_def]

theorem owner_le {stream : List (String × Fin n)} (hsorted : stream.Pairwise fun a b => a.2 ≤ b.2) {i k : ℕ}
    {a b : Fin n} (hi : (stream.map (·.2))[i]? = some a) (hk : (stream.map (·.2))[k]? = some b) (hik : i ≤ k) : a ≤ b := by
  obtain rfl | hlt := hik.eq_or_lt
  · exact (Option.some.inj (hi.symm.trans hk)).le
  · obtain ⟨hi', rfl⟩ := List.getElem?_eq_some_iff.1 hi
    obtain ⟨hk', rfl⟩ := List.getElem?_eq_some_iff.1 hk
    have hmap : (stream.map (·.2)).Pairwise (· ≤ ·) := List.pairwise_map.2 hsorted
    exact List.pairwise_iff_getElem.1 hmap i k hi' hk' hlt

/-- In a sorted stream, a window that no word crosses holds all parts of the words it touches. -/
theorem filter_window {stream : List (String × Fin n)} (hsorted : stream.Pairwise fun a b => a.2 ≤ b.2)
    {start length : ℕ} {first last : Fin n} (hfirst : (stream.map (·.2))[start]? = some first)
    (hlast : (stream.map (·.2))[start + length - 1]? = some last) (hlength : 0 < length)
    (haligned : wordBoundaryAligned (stream.map (·.2)) start length = true) :
    (stream.filter fun a => decide (first.val ≤ a.2.val ∧ a.2.val < last.val + 1)) =
      slice stream start (start + length) := by
  have howner : ∀ {k : ℕ} (hk : k < stream.length), (stream.map (·.2))[k]? = some (stream.get ⟨k, hk⟩).2 := by
    intro k hk
    rw [List.getElem?_map, List.getElem?_eq_getElem hk]
    rfl
  have hend : start + length - 1 < stream.length := by
    simpa using (List.getElem?_eq_some_iff.1 hlast).1
  simp only [wordBoundaryAligned, Bool.and_eq_true, Bool.or_eq_true, beq_iff_eq, bne_iff_ne, ne_eq, List.length_map]
    at haligned
  obtain ⟨hleft, hright⟩ := haligned
  -- the words before the window end before it, and those behind it start behind it
  have hbefore : ∀ a ∈ stream.take start, a.2.val < first.val := by
    intro a ha
    obtain ⟨k, hk, rfl⟩ := List.mem_take_iff_getElem.1 ha
    have hpos : start - 1 < stream.length := by omega
    have hle := owner_le hsorted (howner (show k < stream.length by omega)) (howner hpos) (by omega)
    have hle' := owner_le hsorted (howner hpos) hfirst (by omega)
    have hne : (stream.get ⟨start - 1, hpos⟩).2 ≠ first := by
      intro heq
      refine hleft.elim (fun h0 => by omega) fun hne => hne ?_
      rw [hfirst, howner hpos, heq]
    exact lt_of_le_of_lt (b := (stream.get ⟨start - 1, hpos⟩).2) hle (lt_of_le_of_ne hle' hne)
  have hinside : ∀ a ∈ slice stream start (start + length), first.val ≤ a.2.val ∧ a.2.val < last.val + 1 := by
    intro a ha
    obtain ⟨k, hk, rfl⟩ := List.mem_take_iff_getElem.1 ha
    rw [List.length_drop] at hk
    have hk' : start + k < stream.length := by omega
    have hle := owner_le hsorted hfirst (howner hk') (by omega)
    have hle' := owner_le hsorted (howner hk') hlast (by omega)
    rw [List.getElem_drop]
    exact ⟨hle, Nat.lt_succ_of_le hle'⟩
  have hbehind : ∀ a ∈ stream.drop (start + length), last.val < a.2.val := by
    intro a ha
    obtain ⟨k, hk, rfl⟩ := List.mem_drop_iff_getElem.1 ha
    have hpos : start + length < stream.length := by omega
    have hle := owner_le hsorted hlast (howner hpos) (by omega)
    have hle' := owner_le hsorted (howner hpos) (howner (show start + length + k < stream.length by omega)) (by omega)
    have hne : last ≠ (stream.get ⟨start + length, hpos⟩).2 := by
      intro heq
      refine hright.elim (fun h0 => by omega) fun hne => hne ?_
      rw [hlast, howner hpos, heq]
    exact lt_of_lt_of_le (b := (stream.get ⟨start + length, hpos⟩).2) (lt_of_le_of_ne hle hne) hle'
  have hsplit : stream = stream.take start ++ slice stream start (start + length) ++ stream.drop (start + length) := by
    rw [slice, Nat.add_sub_cancel_left, List.append_assoc, ← List.drop_drop, List.take_append_drop,
      List.take_append_drop]
  conv_lhs => rw [hsplit]
  rw [List.filter_append, List.filter_append, List.filter_eq_nil_iff.2, List.filter_eq_self.2, List.filter_eq_nil_iff.2,
    List.nil_append, List.append_nil]
  · intro a ha
    have hlt := hbehind a ha
    simp only [decide_eq_true_eq]
    omega
  · exact fun a ha => decide_eq_true (hinside a ha)
  · intro a ha
    have hlt := hbefore a ha
    simp only [decide_eq_true_eq]
    omega

end

section

variable {T : Type} {E : GroundingOps}

/-- A window of the stream: not empty, inside it, and no word crosses its ends. -/
def WindowAt {n : ℕ} (stream : List (String × Fin n)) (start length : ℕ) : Prop :=
  0 < length ∧ start + length ≤ stream.length ∧ wordBoundaryAligned (stream.map (·.2)) start length = true

/-- The parts of the quote stand at this place. -/
def ExactAt {n : ℕ} (stream : List (String × Fin n)) (quote : List String) (start : ℕ) : Prop :=
  WindowAt stream start quote.length ∧ slice (stream.map (·.1)) start (start + quote.length) = quote

/-- A window of about the length of the quote that is similar enough. -/
def FuzzyAt (E : GroundingOps) (threshold : ℚ) {n : ℕ} (stream : List (String × Fin n)) (quote : List String)
    (start length : ℕ) (score : ℚ) : Prop :=
  WindowAt stream start length ∧ quote.length - 1 ≤ length ∧ length ≤ quote.length + 1 ∧
    score = E.ratio (" ".intercalate quote) (windowText stream start length) ∧ threshold ≤ score

/-- The quote is at this window, exactly and nowhere else. -/
structure LocatedExactly {n : ℕ} (stream : List (String × Fin n)) (quote : List String) (start length : ℕ) : Prop where
  length_eq : length = quote.length
  found : ExactAt stream quote start
  unique : ∀ start', ExactAt stream quote start' → start' = start

/-- The quote is nowhere exactly, and this window has a better score than any other; a field with digits keeps
them. -/
structure LocatedFuzzily (E : GroundingOps) (threshold : ℚ) (keepsDigits : Bool) {n : ℕ}
    (stream : List (String × Fin n)) (quote : List String) (start length : ℕ) : Prop where
  inexact : ∀ start', ¬ ExactAt stream quote start'
  best : ∃ score, FuzzyAt E threshold stream quote start length score ∧
    ∀ start' length' score', FuzzyAt E threshold stream quote start' length' score' →
      (start', length') ≠ (start, length) → score' < score
  digits : keepsDigits = true →
    digitRuns E.toUnicode (" ".intercalate quote) = digitRuns E.toUnicode (windowText stream start length)

theorem mem_alignedStarts {n : ℕ} {stream : List (String × Fin n)} {start length : ℕ} (hlength : 0 < length) :
    start ∈ alignedStarts (stream.map (·.2)) length ↔ WindowAt stream start length := by
  rw [alignedStarts, List.mem_filter, List.mem_range, List.length_map, WindowAt]
  constructor
  · rintro ⟨hlt, haligned⟩
    exact ⟨hlength, by omega, haligned⟩
  · rintro ⟨-, hle, haligned⟩
    exact ⟨by omega, haligned⟩

theorem mem_exactStarts {n : ℕ} {stream : List (String × Fin n)} {quote : List String} (hquote : quote ≠ [])
    {start : ℕ} : start ∈ exactStarts stream quote ↔ ExactAt stream quote start := by
  rw [exactStarts, List.mem_filter, mem_alignedStarts (List.length_pos_of_ne_nil hquote), decide_eq_true_eq]
  rfl

theorem mem_scoredWindows {threshold : ℚ} {n : ℕ} {stream : List (String × Fin n)} {quote : List String} {score : ℚ}
    {start length : ℕ} : (score, start, length) ∈ scoredWindows E threshold stream quote ↔
      FuzzyAt E threshold stream quote start length score := by
  simp only [scoredWindows, List.mem_flatMap, List.mem_range'_1, List.mem_filterMap, FuzzyAt]
  constructor
  · rintro ⟨l, hl, s, hs, h⟩
    split_ifs at h with hscore
    obtain ⟨rfl, rfl, rfl⟩ : E.ratio _ _ = score ∧ s = start ∧ l = length := by simpa using h
    exact ⟨(mem_alignedStarts (by omega)).1 hs, by omega, by omega, rfl, hscore⟩
  · rintro ⟨hwindow, hmin, hmax, rfl, hscore⟩
    have hpos : 0 < length := hwindow.1
    exact ⟨length, by omega, start, (mem_alignedStarts hpos).2 hwindow, by rw [if_pos hscore]⟩

theorem le_foldl_max (ws : List (ℚ × ℕ × ℕ)) (b : ℚ) :
    b ≤ ws.foldl (fun b x => max b x.1) b ∧ ∀ w ∈ ws, w.1 ≤ ws.foldl (fun b x => max b x.1) b := by
  induction ws generalizing b with
  | nil => exact ⟨le_rfl, by simp⟩
  | cons w ws ih =>
    obtain ⟨hb, hws⟩ := ih (max b w.1)
    refine ⟨(le_max_left _ _).trans hb, fun v hv => ?_⟩
    rcases List.mem_cons.1 hv with rfl | hv
    · exact (le_max_right _ _).trans hb
    · exact hws v hv

theorem bestWindows_single {ws : List (ℚ × ℕ × ℕ)} {w : ℕ × ℕ} (h : bestWindows ws = [w]) :
    ∃ score, (score, w) ∈ ws ∧ ∀ score' w', (score', w') ∈ ws → w' ≠ w → score' < score := by
  cases ws with
  | nil => cases h
  | cons v vs =>
    simp only [bestWindows] at h
    obtain ⟨hv, hvs⟩ := le_foldl_max vs v.1
    generalize vs.foldl (fun b x => max b x.1) v.1 = best at h hv hvs
    have hmem : w ∈ ((v :: vs).filter (·.1 = best)).map (·.2) := by rw [h]; simp
    obtain ⟨⟨score, w⟩, hfilter, rfl⟩ := List.mem_map.1 hmem
    obtain ⟨hw, hscore⟩ := List.mem_filter.1 hfilter
    obtain rfl : score = best := by simpa using hscore
    refine ⟨score, hw, fun score' w' hw' hne => ?_⟩
    have hle : score' ≤ score := by
      rcases List.mem_cons.1 hw' with rfl | hw'
      · exact hv
      · exact hvs _ hw'
    refine lt_of_le_of_ne hle fun heq => hne ?_
    have hother : w' ∈ ((v :: vs).filter (·.1 = score)).map (·.2) :=
      List.mem_map_of_mem (List.mem_filter.2 ⟨hw', by simpa using heq⟩)
    rw [h] at hother
    exact List.mem_singleton.1 hother

variable {kind : FieldKind T} {words : List WordToken} {value : T} {threshold : ℚ}

/-- The window holds the parts of the words from `first` up to `last`, and nothing else. -/
theorem WindowAt.owners {U : Unicode} {start length : ℕ} (h : WindowAt (pageStream U words) start length) :
    ∃ first last : Fin words.length, ((pageStream U words).map (·.2))[start]? = some first ∧
      ((pageStream U words).map (·.2))[start + length - 1]? = some last ∧
      slice ((pageStream U words).map (·.1)) start (start + length) =
        (slice words first (last + 1)).flatMap fun w => parts U w.text := by
  obtain ⟨hlength, hle, haligned⟩ := h
  have hfirst : start < ((pageStream U words).map (·.2)).length := by rw [List.length_map]; omega
  have hlast : start + length - 1 < ((pageStream U words).map (·.2)).length := by rw [List.length_map]; omega
  have hget := List.getElem?_eq_getElem hfirst
  have hget' := List.getElem?_eq_getElem hlast
  refine ⟨_, _, hget, hget', ?_⟩
  rw [← parts_between, filter_window (pairwise_pageStream U words) hget hget' hlength haligned]
  simp only [slice, List.map_take, List.map_drop]

/-- The value is read from the words `left` to `right` and from no other run between `first` and `last`. -/
structure ReadOnce (kind : FieldKind T) (words : List WordToken) (first last : ℕ) (value : T) (left right : ℕ) : Prop where
  inside : first ≤ left ∧ left < right ∧ right ≤ last
  reads : kind.reads (joinTexts (slice words left right)) value = true
  unique : ∀ left' right', first ≤ left' → left' < right' → right' ≤ last →
    kind.reads (joinTexts (slice words left' right')) value = true → left' = left ∧ right' = right

theorem mem_valueMatches_iff {first last : ℕ} {m : ℕ × ℕ} : m ∈ valueMatches kind words first last value ↔
    first ≤ m.1 ∧ m.1 < m.2 ∧ m.2 ≤ last ∧ kind.reads (joinTexts (slice words m.1 m.2)) value = true := by
  constructor
  · intro h
    obtain ⟨hlt, hle, hreads⟩ := mem_valueMatches h
    obtain ⟨left, hleft, hm⟩ := List.mem_flatMap.1 (List.mem_of_mem_filter h)
    obtain ⟨right, -, rfl⟩ := List.mem_map.1 hm
    exact ⟨(List.mem_range'_1.1 hleft).1, hlt, hle, hreads⟩
  · rintro ⟨hfirst, hlt, hle, hreads⟩
    refine List.mem_filter.2 ⟨List.mem_flatMap.2 ⟨m.1, ?_, List.mem_map.2 ⟨m.2, ?_, rfl⟩⟩, hreads⟩
    · rw [List.mem_range'_1]
      omega
    · rw [List.mem_range'_1]
      omega

theorem bindBetween_readOnce {first last : Fin words.length} {fuzzy : Bool}
    (h : (bindBetween E kind words first last value fuzzy).grounded = true) :
    ∃ left right, ReadOnce kind words first (last + 1) value left right ∧
      (bindBetween E kind words first last value fuzzy).reason = boundReason fuzzy ∧
      (bindBetween E kind words first last value fuzzy).normalizedValue = some value ∧
      (bindBetween E kind words first last value fuzzy).evidence = evidenceFromWords E (slice words left right) := by
  unfold bindBetween at h ⊢
  split at h
  · simp at h
  · rename_i m hm
    obtain ⟨hfirst, hlt, hle, hreads⟩ := mem_valueMatches_iff.1
      (show m ∈ valueMatches kind words first (last + 1) value by simp [hm])
    refine ⟨m.1, m.2, ⟨⟨hfirst, hlt, hle⟩, hreads, fun left' right' h1 h2 h3 h4 => ?_⟩, rfl, rfl, rfl⟩
    have hmem : (left', right') ∈ valueMatches kind words first (last + 1) value := mem_valueMatches_iff.2 ⟨h1, h2, h3, h4⟩
    rw [hm] at hmem
    exact Prod.mk.inj (List.mem_singleton.1 hmem)
  · simp at h

/-- What a grounded result stands for: one window of whole words, one run in it with the value, and the evidence of
the words of that run. -/
structure GroundedAt (E : GroundingOps) (threshold : ℚ) (kind : FieldKind T) (words : List WordToken)
    (quote : List String) (value : T) (g : GroundingResult T) (start length : ℕ) (first last : Fin words.length)
    (left right : ℕ) : Prop where
  located : g.reason = .groundedExact ∧ LocatedExactly (pageStream E.toUnicode words) quote start length ∨
    g.reason = .groundedFuzzy ∧
      LocatedFuzzily E threshold kind.keepsDigits (pageStream E.toUnicode words) quote start length
  window : WindowAt (pageStream E.toUnicode words) start length
  ends : ((pageStream E.toUnicode words).map (·.2))[start]? = some first ∧
    ((pageStream E.toUnicode words).map (·.2))[start + length - 1]? = some last
  tokens : slice ((pageStream E.toUnicode words).map (·.1)) start (start + length) =
    (slice words first (last + 1)).flatMap fun w => parts E.toUnicode w.text
  readOnce : ReadOnce kind words first (last + 1) value left right
  value_eq : g.normalizedValue = some value
  evidence_eq : g.evidence = evidenceFromWords E (slice words left right)
  covers : EvidenceCovers g.evidence (slice words left right)
  evidence_ne : g.evidence ≠ []

theorem bindValue_groundedAt {quote : List String} {start length : ℕ} {fuzzy : Bool}
    (hwindow : WindowAt (pageStream E.toUnicode words) start length)
    (hlocated : fuzzy = false ∧ LocatedExactly (pageStream E.toUnicode words) quote start length ∨
      fuzzy = true ∧ LocatedFuzzily E threshold kind.keepsDigits (pageStream E.toUnicode words) quote start length)
    (h : (bindValue E kind words ((pageStream E.toUnicode words).map (·.2)) start length value fuzzy).grounded = true) :
    ∃ first last left right, GroundedAt E threshold kind words quote value
      (bindValue E kind words ((pageStream E.toUnicode words).map (·.2)) start length value fuzzy)
      start length first last left right := by
  obtain ⟨first, last, hfirst, hlast, htokens⟩ := hwindow.owners
  have hbind : bindValue E kind words ((pageStream E.toUnicode words).map (·.2)) start length value fuzzy =
      bindBetween E kind words first last value fuzzy := by
    rw [bindValue, hfirst, hlast]
  rw [hbind] at h ⊢
  obtain ⟨left, right, hread, hreason, hvalue, hevidence⟩ := bindBetween_readOnce h
  refine ⟨first, last, left, right, ?_, hwindow, ⟨hfirst, hlast⟩, htokens, hread, hvalue, hevidence, ?_, ?_⟩
  · rw [hreason]
    rcases hlocated with ⟨rfl, hlocated⟩ | ⟨rfl, hlocated⟩
    · exact .inl ⟨rfl, hlocated⟩
    · exact .inr ⟨rfl, hlocated⟩
  · rw [hevidence]
    exact evidenceCovers_evidenceFromWords E _
  · rw [hevidence]
    exact evidenceFromWords_ne_nil (slice_ne_nil ⟨hread.inside.2.1, hread.inside.2.2.trans last.isLt⟩)

theorem groundOnPage_groundedAt {text : String}
    (h : (groundOnPage E threshold kind words text value).grounded = true) :
    ∃ start length first last left right, GroundedAt E threshold kind words (parts E.toUnicode text) value
      (groundOnPage E threshold kind words text value) start length first last left right := by
  simp only [groundOnPage] at h ⊢
  split at h
  · simp at h
  · rename_i hquote
    rw [if_neg hquote]
    split at h
    · rename_i start hstart
      have hmem : ∀ start', ExactAt (pageStream E.toUnicode words) (parts E.toUnicode text) start' ↔ start' = start := by
        intro start'
        rw [← mem_exactStarts hquote, hstart, List.mem_singleton]
      have hfound := (hmem start).2 rfl
      obtain ⟨first, last, left, right, hg⟩ := bindValue_groundedAt hfound.1
        (.inl ⟨rfl, rfl, hfound, fun start' h' => (hmem start').1 h'⟩) h
      exact ⟨start, _, first, last, left, right, hg⟩
    · simp at h
    · rename_i hnone
      split at h
      · simp at h
      · simp at h
      · rename_i w hw
        split at h
        · simp at h
        · rename_i hdigits
          rw [if_neg hdigits]
          obtain ⟨score, hscore, hbest⟩ := bestWindows_single hw
          have hfuzzy := mem_scoredWindows.1 hscore
          have hinexact : ∀ start', ¬ ExactAt (pageStream E.toUnicode words) (parts E.toUnicode text) start' := by
            intro start' hexact
            rw [← mem_exactStarts hquote, hnone] at hexact
            exact List.not_mem_nil hexact
          obtain ⟨first, last, left, right, hg⟩ := bindValue_groundedAt hfuzzy.1
            (.inr ⟨rfl, hinexact, ⟨score, hfuzzy, fun start' length' score' hother hne =>
              hbest score' (start', length') (mem_scoredWindows.2 hother) hne⟩, fun hkeeps => by
                by_contra hne
                exact hdigits ⟨hkeeps, hne⟩⟩) h
          exact ⟨w.1, w.2, first, last, left, right, hg⟩

/-- A grounded candidate has its quote at one place of the page it names, exactly or as the best fuzzy window, and
its value in one run of whole words there, whose evidence it carries. -/
theorem grounded_once (E : GroundingOps) (threshold : ℚ) (kind : FieldKind T) (candidate : CandidateField)
    (document : DocumentText) (h : (groundCandidate E threshold kind candidate document).grounded = true) :
    ∃ p page raw text value start length first last left right,
      candidate.page = some p ∧ document.pages[p]? = some page ∧ candidate.rawValue = some raw ∧
      kind.normalize raw = some value ∧ candidate.evidenceQuote = some text ∧
      GroundedAt E threshold kind (sortedWords page) (parts E.toUnicode text) value
        (groundCandidate E threshold kind candidate document) start length first last left right := by
  rcases groundCandidate_cases E threshold kind candidate document with hno |
    ⟨p, page, raw, text, value, hp, hpage, hraw, hvalue, htext, heq⟩
  · rw [hno] at h
    cases h
  · rw [heq] at h ⊢
    obtain ⟨start, length, first, last, left, right, hg⟩ := groundOnPage_groundedAt h
    exact ⟨p, page, raw, text, value, start, length, first, last, left, right, hp, hpage, hraw, hvalue, htext, hg⟩

end

/-- Texts of ASCII letters and digits; only equal texts are alike. -/
def asciiGrounding : GroundingOps where
  nfkc := id
  casefold := String.toLower
  upper := String.toUpper
  isWord := fun c => c.isAlphanum || c == '_'
  isAlnum := Char.isAlphanum
  digit := Text.asciiDigit
  ratio := fun l r => if l = r then 100 else 0
  floatMid := fun a b => (a + b) / 2
  floatSub := fun a b => a - b

/-- A word in the top tenth of the first page, in one of ten columns. -/
def topWord (text : String) (column : Fin 10) : WordToken where
  text := text
  page := 0
  bbox :=
    { x0 := column.val / 10
      y0 := 0
      x1 := (column.val + 1) / 10
      y1 := 1 / 10
      unit := by
        have h : ((column.val : ℚ) + 1) ≤ 10 := by exact_mod_cast column.isLt
        exact ⟨⟨by positivity, le_rfl⟩, by linarith, by norm_num⟩
      ordered := ⟨by gcongr; linarith, by norm_num⟩ }
  blockNumber := 0
  lineNumber := 0
  wordNumber := column
  source := .embedded

def taxPage : DocumentText := ⟨[⟨0, [topWord "Tax:" 1, topWord "7" 2]⟩]⟩

def leftWord (text : String) : WordToken := topWord text 1

def rightWord (text : String) : WordToken := topWord text 2

def taxCandidate : CandidateField := ⟨some "7", some 0, some "Tax 7"⟩

theorem grounded_once_tax :
    (groundCandidate asciiGrounding 92 (moneyField "tax") taxCandidate taxPage).grounded = true ∧
    ∃ p page raw text value start length first last left right,
      taxCandidate.page = some p ∧ taxPage.pages[p]? = some page ∧ taxCandidate.rawValue = some raw ∧
      (moneyField "tax").normalize raw = some value ∧ taxCandidate.evidenceQuote = some text ∧
      GroundedAt asciiGrounding 92 (moneyField "tax") (sortedWords page) (parts asciiGrounding.toUnicode text) value
        (groundCandidate asciiGrounding 92 (moneyField "tax") taxCandidate taxPage)
        start length first last left right := by
  have hgrounded : (groundCandidate asciiGrounding 92 (moneyField "tax") taxCandidate taxPage).grounded = true := by
    decide +kernel
  exact ⟨hgrounded, grounded_once asciiGrounding 92 (moneyField "tax") taxCandidate taxPage hgrounded⟩

end InvoiceOps
