import InvoiceOps.Extraction.Normalization
import InvoiceOps.Lib.Lists
import Mathlib.Data.Prod.Lex

/-! Grounding of the vision model's candidates (`extraction/hybrid/grounding.py`, `extraction/evidence.py`). The
quote of a candidate locates a stretch of words on the page it names, and the value is bound to whole words inside
that stretch. A result that is grounded therefore has a value printed on the page, and its evidence is made of the
words the value was read from. -/

namespace InvoiceOps

open Calendar Text

/-- The operations on texts and floats that grounding uses: the similarity of two texts, the middle of two
coordinates and the difference of two. -/
structure GroundingOps extends Unicode where
  ratio : String → String → ℚ
  floatMid : ℚ → ℚ → ℚ
  floatSub : ℚ → ℚ → ℚ

variable {T : Type} {E : GroundingOps}

def TextSource.value : TextSource → String
  | .embedded => "embedded_text"
  | .ocr => "ocr"

/-- The smallest box around two boxes. -/
def BoundingBox.union (a b : BoundingBox) : BoundingBox where
  x0 := min a.x0 b.x0
  y0 := min a.y0 b.y0
  x1 := max a.x1 b.x1
  y1 := max a.y1 b.y1
  unit := ⟨⟨le_min a.unit.1.1 b.unit.1.1, le_min a.unit.1.2 b.unit.1.2⟩,
    max_le a.unit.2.1 b.unit.2.1, max_le a.unit.2.2 b.unit.2.2⟩
  ordered := ⟨(min_le_left _ _).trans (a.ordered.1.trans (le_max_left _ _)),
    (min_le_left _ _).trans (a.ordered.2.trans (le_max_left _ _))⟩

/-- `b` contains `a`. -/
def BoundingBox.Inside (a b : BoundingBox) : Prop := b.x0 ≤ a.x0 ∧ b.y0 ≤ a.y0 ∧ a.x1 ≤ b.x1 ∧ a.y1 ≤ b.y1

def unionBbox (word : WordToken) (words : List WordToken) : BoundingBox :=
  words.foldl (fun box w => box.union w.bbox) word.bbox

/-- The texts of the words with a blank between two. -/
def joinTexts (words : List WordToken) : String := " ".intercalate (words.map (·.text))

def WordToken.evidenceKey (w : WordToken) : ℕ × TextSource := (w.page, w.source)

/-- The order of the words inside one span. -/
def evidenceOrder (E : GroundingOps) (w : WordToken) : ℚ ×ₗ ℚ ×ₗ ℕ :=
  toLex (E.floatMid w.bbox.y0 w.bbox.y1, toLex (w.bbox.x0, w.wordNumber))

/-- The words of one page and source, in order. -/
def evidenceGroup (E : GroundingOps) (words : List WordToken) (key : ℕ × TextSource) : List WordToken :=
  (words.filter fun w => w.evidenceKey = key).insertionSort fun w w' => evidenceOrder E w ≤ evidenceOrder E w'

/-- The keys in the order of their spans. -/
def evidenceKeys (words : List WordToken) : List (ℕ × TextSource) :=
  (words.map WordToken.evidenceKey).dedup.insertionSort fun k k' =>
    k.1 < k'.1 ∨ k.1 = k'.1 ∧ k.2.value ≤ k'.2.value

def evidenceSpan (key : ℕ × TextSource) : List WordToken → Option EvidenceSpan
  | [] => none
  | w :: ws => some ⟨key.1, unionBbox w ws, joinTexts (w :: ws), key.2⟩

def evidenceFromWords (E : GroundingOps) (words : List WordToken) : List EvidenceSpan :=
  (evidenceKeys words).filterMap fun key => evidenceSpan key (evidenceGroup E words key)

/-- A span that stands for exactly these words. -/
structure EvidenceSpan.Covers (span : EvidenceSpan) (words : List WordToken) : Prop where
  nonempty : words ≠ []
  text : span.text = joinTexts words
  place : ∀ w ∈ words, w.page = span.page ∧ w.source = span.source ∧ w.bbox.Inside span.bbox

/-- The spans stand for the words, each word in exactly one of them. -/
def EvidenceCovers (spans : List EvidenceSpan) (words : List WordToken) : Prop :=
  ∃ groups : List (List WordToken), groups.flatten.Perm words ∧ List.Forall₂ EvidenceSpan.Covers spans groups

theorem BoundingBox.Inside.refl (a : BoundingBox) : a.Inside a := ⟨le_rfl, le_rfl, le_rfl, le_rfl⟩

theorem BoundingBox.Inside.trans {a b c : BoundingBox} (h : a.Inside b) (h' : b.Inside c) : a.Inside c :=
  ⟨h'.1.trans h.1, h'.2.1.trans h.2.1, h.2.2.1.trans h'.2.2.1, h.2.2.2.trans h'.2.2.2⟩

theorem BoundingBox.inside_union_left (a b : BoundingBox) : a.Inside (a.union b) :=
  ⟨min_le_left _ _, min_le_left _ _, le_max_left _ _, le_max_left _ _⟩

theorem BoundingBox.inside_union_right (a b : BoundingBox) : b.Inside (a.union b) :=
  ⟨min_le_right _ _, min_le_right _ _, le_max_right _ _, le_max_right _ _⟩

theorem inside_foldl_union (box : BoundingBox) (words : List WordToken) :
    box.Inside (words.foldl (fun box w => box.union w.bbox) box) ∧
      ∀ w ∈ words, w.bbox.Inside (words.foldl (fun box w => box.union w.bbox) box) := by
  induction words generalizing box with
  | nil => exact ⟨.refl box, by simp⟩
  | cons w ws ih =>
    obtain ⟨hbox, hws⟩ := ih (box.union w.bbox)
    refine ⟨(box.inside_union_left w.bbox).trans hbox, fun w' hw' => ?_⟩
    rcases List.mem_cons.1 hw' with rfl | hw'
    · exact (box.inside_union_right _).trans hbox
    · exact hws w' hw'

theorem inside_unionBbox {word w : WordToken} {words : List WordToken} (h : w ∈ word :: words) :
    w.bbox.Inside (unionBbox word words) := by
  obtain ⟨hword, hwords⟩ := inside_foldl_union word.bbox words
  rcases List.mem_cons.1 h with rfl | h
  · exact hword
  · exact hwords w h

theorem mem_evidenceKeys {words : List WordToken} {key : ℕ × TextSource} :
    key ∈ evidenceKeys words ↔ ∃ w ∈ words, w.evidenceKey = key := by
  rw [evidenceKeys, (List.perm_insertionSort _ _).mem_iff, List.mem_dedup, List.mem_map]

theorem nodup_evidenceKeys (words : List WordToken) : (evidenceKeys words).Nodup :=
  (List.perm_insertionSort _ _).nodup_iff.2 (List.nodup_dedup _)

theorem mem_evidenceGroup {words : List WordToken} {key : ℕ × TextSource} {w : WordToken} :
    w ∈ evidenceGroup E words key ↔ w ∈ words ∧ w.evidenceKey = key := by
  simp [evidenceGroup, (List.perm_insertionSort _ _).mem_iff]

theorem evidenceSpan_group {words : List WordToken} {key : ℕ × TextSource} (hkey : key ∈ evidenceKeys words) :
    ∃ span, evidenceSpan key (evidenceGroup E words key) = some span ∧ span.Covers (evidenceGroup E words key) := by
  have hplace : ∀ w ∈ evidenceGroup E words key, w.page = key.1 ∧ w.source = key.2 := by
    intro w hw
    have h := (mem_evidenceGroup.1 hw).2
    exact ⟨congrArg Prod.fst h, congrArg Prod.snd h⟩
  obtain ⟨w, hw, hwkey⟩ := mem_evidenceKeys.1 hkey
  have hmem : w ∈ evidenceGroup E words key := mem_evidenceGroup.2 ⟨hw, hwkey⟩
  cases hgroup : evidenceGroup E words key with
  | nil => exact absurd (hgroup ▸ hmem) List.not_mem_nil
  | cons w ws =>
    rw [hgroup] at hplace
    refine ⟨_, rfl, by simp, rfl, fun w' hw' => ?_⟩
    exact ⟨(hplace w' hw').1, (hplace w' hw').2, inside_unionBbox hw'⟩

theorem evidenceCovers_evidenceFromWords (E : GroundingOps) (words : List WordToken) :
    EvidenceCovers (evidenceFromWords E words) words := by
  refine ⟨(evidenceKeys words).map (evidenceGroup E words), ?_, ?_⟩
  · have hsort : ((evidenceKeys words).flatMap (evidenceGroup E words)).Perm
        ((evidenceKeys words).flatMap fun key => words.filter fun w => w.evidenceKey = key) :=
      List.Perm.flatMap_left _ fun key _ => List.perm_insertionSort _ _
    rw [← List.flatMap_def]
    exact hsort.trans (Lists.flatMap_filter_key_perm (nodup_evidenceKeys words)
      fun w hw => mem_evidenceKeys.2 ⟨w, hw, rfl⟩)
  · suffices h : ∀ ks : List (ℕ × TextSource), (∀ k ∈ ks, k ∈ evidenceKeys words) →
        List.Forall₂ EvidenceSpan.Covers (ks.filterMap fun key => evidenceSpan key (evidenceGroup E words key))
          (ks.map (evidenceGroup E words)) from h _ fun _ hk => hk
    intro ks
    induction ks with
    | nil => simp
    | cons k ks ih =>
      intro hks
      obtain ⟨span, hspan, hcovers⟩ := evidenceSpan_group (E := E) (hks k (by simp))
      rw [List.filterMap_cons, hspan, List.map_cons]
      exact .cons hcovers (ih fun k' hk' => hks k' (by simp [hk']))

theorem evidenceFromWords_ne_nil {words : List WordToken} (h : words ≠ []) : evidenceFromWords E words ≠ [] := by
  obtain ⟨groups, hperm, hcovers⟩ := evidenceCovers_evidenceFromWords E words
  intro hnil
  rw [hnil, List.forall₂_nil_left_iff] at hcovers
  rw [hcovers] at hperm
  exact h (List.nil_perm.1 hperm)

structure CandidateField where
  rawValue : Option String
  page : Option ℕ
  evidenceQuote : Option String
deriving DecidableEq, Repr

inductive GroundingReason
  | groundedExact
  | groundedFuzzy
  | quoteNotFound
  | quoteNotUnique
  | pageOutOfRange
  | valueNormalizationFailed
  | valueNotFoundInQuote
  | valueNotUniqueInQuote
  | quoteDigitsMismatch
deriving DecidableEq, Repr

def GroundingReason.value : GroundingReason → String
  | .groundedExact => "GROUNDED_EXACT"
  | .groundedFuzzy => "GROUNDED_FUZZY"
  | .quoteNotFound => "QUOTE_NOT_FOUND"
  | .quoteNotUnique => "QUOTE_NOT_UNIQUE"
  | .pageOutOfRange => "PAGE_OUT_OF_RANGE"
  | .valueNormalizationFailed => "VALUE_NORMALIZATION_FAILED"
  | .valueNotFoundInQuote => "VALUE_NOT_FOUND_IN_QUOTE"
  | .valueNotUniqueInQuote => "VALUE_NOT_UNIQUE_IN_QUOTE"
  | .quoteDigitsMismatch => "QUOTE_DIGITS_MISMATCH"

def GroundingReason.grounded (r : GroundingReason) : Bool := r == .groundedExact || r == .groundedFuzzy

/-- A grounded result has a value and evidence for it. -/
structure GroundingResult (T : Type) where
  reason : GroundingReason
  normalizedValue : Option T
  evidence : List EvidenceSpan
  contract : reason.grounded = true → normalizedValue.isSome ∧ evidence ≠ []
deriving DecidableEq, Repr

def GroundingResult.grounded (g : GroundingResult T) : Bool := g.reason.grounded

/-- A result for a reason that does not ground. -/
def GroundingResult.reject (reason : GroundingReason) (value : Option T) (h : reason.grounded = false) :
    GroundingResult T := ⟨reason, value, [], fun hg => absurd hg (by simp [h])⟩

@[simp] theorem GroundingResult.grounded_reject {reason : GroundingReason} {value : Option T}
    (h : reason.grounded = false) : (reject reason value h).grounded = false := h

/-- One field of an invoice: its name, its normalisation, the equality of its values in Python, and whether a fuzzy
quote must keep its digits. -/
structure FieldKind (T : Type) where
  name : String
  normalize : String → Option T
  same : T → T → Bool
  keepsDigits : Bool

def textField (name : String) : FieldKind String where
  name := name
  normalize raw := if normalizeWhitespace raw = "" then none else some (normalizeWhitespace raw)
  same v w := v == w
  keepsDigits := false

/-- The fields of `NUMERIC_FIELDS`; amounts are equal as numbers. -/
def moneyField (name : String) : FieldKind Decimal where
  name := name
  normalize := parseMoney
  same v w := decide (v.numEq w)
  keepsDigits := true

def dateField (U : Unicode) : FieldKind Date where
  name := "invoice_date"
  normalize := parseInvoiceDate U
  same v w := v == w
  keepsDigits := true

def currencyField (U : Unicode) : FieldKind String where
  name := "currency"
  normalize := normalizeCurrency U
  same v w := v == w
  keepsDigits := false

/-- The text normalises to the value. -/
def FieldKind.reads (kind : FieldKind T) (text : String) (value : T) : Bool :=
  (kind.normalize text).any fun v => kind.same v value

/-- The maximal runs of characters satisfying `p`. -/
def runs (p : Char → Bool) (s : String) : List String :=
  ((s.toList.splitOnP fun c => !p c).filter (· ≠ [])).map String.ofList

def parts (U : Unicode) (value : String) : List String :=
  runs (fun c => U.isWord c && c != '_') (U.casefold (U.nfkc value))

/-- The order in which the words of a page are read. -/
def readingOrder (w : WordToken) : ℚ ×ₗ ℚ ×ₗ ℕ ×ₗ ℕ :=
  toLex (w.bbox.y0, toLex (w.bbox.x0, toLex (w.blockNumber, w.lineNumber)))

def sortedWords (page : PageText) : List WordToken :=
  page.words.insertionSort fun w w' => readingOrder w ≤ readingOrder w'

/-- The parts of all words, each with the position of the word it belongs to. -/
def pageStream (U : Unicode) (words : List WordToken) : List (String × Fin words.length) :=
  (List.finRange words.length).flatMap fun i => (parts U (words.get i).text).map fun part => (part, i)

def wordBoundaryAligned {n : ℕ} (owners : List (Fin n)) (start length : ℕ) : Bool :=
  (start == 0 || owners[start - 1]? != owners[start]?) &&
    (start + length == owners.length || owners[start + length - 1]? != owners[start + length]?)

/-- `xs[left:right]` -/
def slice {α : Type} (xs : List α) (left right : ℕ) : List α := (xs.drop left).take (right - left)

/-- The places a window of this length can start at: whole words. -/
def alignedStarts {n : ℕ} (owners : List (Fin n)) (length : ℕ) : List ℕ :=
  (List.range (owners.length + 1 - length)).filter fun start => wordBoundaryAligned owners start length

def exactStarts {n : ℕ} (stream : List (String × Fin n)) (quote : List String) : List ℕ :=
  (alignedStarts (stream.map (·.2)) quote.length).filter fun start =>
    slice (stream.map (·.1)) start (start + quote.length) = quote

/-- The text of a window of the stream. -/
def windowText {n : ℕ} (stream : List (String × Fin n)) (start length : ℕ) : String :=
  " ".intercalate (slice (stream.map (·.1)) start (start + length))

/-- The windows of about the length of the quote that are similar enough, with their scores. -/
def scoredWindows (E : GroundingOps) (threshold : ℚ) {n : ℕ} (stream : List (String × Fin n)) (quote : List String) :
    List (ℚ × ℕ × ℕ) :=
  (List.range' (max 1 (quote.length - 1)) (quote.length + 2 - max 1 (quote.length - 1))).flatMap fun length =>
    (alignedStarts (stream.map (·.2)) length).filterMap fun start =>
      let score := E.ratio (" ".intercalate quote) (windowText stream start length)
      if threshold ≤ score then some (score, start, length) else none

/-- The windows with the best score. -/
def bestWindows : List (ℚ × ℕ × ℕ) → List (ℕ × ℕ)
  | [] => []
  | w :: ws =>
    let best := ws.foldl (fun b x => max b x.1) w.1
    ((w :: ws).filter (·.1 = best)).map (·.2)

def digitRuns (U : Unicode) (text : String) : List String := runs (fun c => (U.digit c).isSome) text

/-- The runs of whole words between two positions that normalise to the value. -/
def valueMatches (kind : FieldKind T) (words : List WordToken) (first last : ℕ) (value : T) : List (ℕ × ℕ) :=
  ((List.range' first (last - first)).flatMap fun left =>
    (List.range' (left + 1) (last - left)).map fun right => (left, right)).filter fun m =>
      kind.reads (joinTexts (slice words m.1 m.2)) value

/-- The value is what a run of whole words reads as, and the evidence is made of these words. -/
structure PrintedOn (E : GroundingOps) (kind : FieldKind T) (words : List WordToken) (value : T)
    (evidence : List EvidenceSpan) (left right : ℕ) : Prop where
  run : left < right ∧ right ≤ words.length
  reads : kind.reads (joinTexts (slice words left right)) value = true
  evidence_eq : evidence = evidenceFromWords E (slice words left right)
  covers : EvidenceCovers evidence (slice words left right)

theorem mem_valueMatches {kind : FieldKind T} {words : List WordToken} {first last : ℕ} {value : T} {m : ℕ × ℕ}
    (h : m ∈ valueMatches kind words first last value) :
    m.1 < m.2 ∧ m.2 ≤ last ∧ kind.reads (joinTexts (slice words m.1 m.2)) value = true := by
  obtain ⟨hm, hreads⟩ := List.mem_filter.1 h
  obtain ⟨left, hleft, hm⟩ := List.mem_flatMap.1 hm
  obtain ⟨right, hright, rfl⟩ := List.mem_map.1 hm
  rw [List.mem_range'_1] at hleft hright
  exact ⟨by omega, by omega, hreads⟩

theorem printedOn_of_mem {kind : FieldKind T} {words : List WordToken} {first last : ℕ} {value : T} {m : ℕ × ℕ}
    (hlast : last ≤ words.length) (h : m ∈ valueMatches kind words first last value) :
    PrintedOn E kind words value (evidenceFromWords E (slice words m.1 m.2)) m.1 m.2 := by
  obtain ⟨hlt, hle, hreads⟩ := mem_valueMatches h
  exact ⟨⟨hlt, hle.trans hlast⟩, hreads, rfl, evidenceCovers_evidenceFromWords E _⟩

theorem slice_ne_nil {α : Type} {xs : List α} {left right : ℕ} (h : left < right ∧ right ≤ xs.length) :
    slice xs left right ≠ [] := by
  have hlen : 0 < (slice xs left right).length := by
    rw [slice, List.length_take, List.length_drop]
    omega
  exact List.ne_nil_of_length_pos hlen

theorem PrintedOn.evidence_ne_nil {kind : FieldKind T} {words : List WordToken} {value : T}
    {evidence : List EvidenceSpan} {left right : ℕ} (h : PrintedOn E kind words value evidence left right) :
    evidence ≠ [] := by
  rw [h.evidence_eq]
  exact evidenceFromWords_ne_nil (slice_ne_nil h.run)

def boundReason (fuzzy : Bool) : GroundingReason := if fuzzy then .groundedFuzzy else .groundedExact

/-- `_bind_value`, between the words `first` and `last` that own the ends of the window. -/
def bindBetween (E : GroundingOps) (kind : FieldKind T) (words : List WordToken) (first last : Fin words.length)
    (value : T) (fuzzy : Bool) : GroundingResult T :=
  match hm : valueMatches kind words first (last + 1) value with
  | [] => .reject .valueNotFoundInQuote (some value) (by decide)
  | [m] =>
    { reason := boundReason fuzzy
      normalizedValue := some value
      evidence := evidenceFromWords E (slice words m.1 m.2)
      contract := fun _ =>
        have hmem : m ∈ valueMatches kind words first (last + 1) value := by simp [hm]
        ⟨rfl, (printedOn_of_mem (E := E) last.isLt hmem).evidence_ne_nil⟩ }
  | _ :: _ :: _ => .reject .valueNotUniqueInQuote (some value) (by decide)

/-- `_bind_value`. A window is not empty and lies inside the stream, so both its ends have an owner. -/
def bindValue (E : GroundingOps) (kind : FieldKind T) (words : List WordToken) (owners : List (Fin words.length))
    (start length : ℕ) (value : T) (fuzzy : Bool) : GroundingResult T :=
  match owners[start]?, owners[start + length - 1]? with
  | some first, some last => bindBetween E kind words first last value fuzzy
  | _, _ => .reject .valueNotFoundInQuote (some value) (by decide)

/-- The part of `ground_candidate` that searches the words of the page. -/
def groundOnPage (E : GroundingOps) (threshold : ℚ) (kind : FieldKind T) (words : List WordToken)
    (evidenceQuote : String) (value : T) : GroundingResult T :=
  let stream := pageStream E.toUnicode words
  let owners := stream.map (·.2)
  let quote := parts E.toUnicode evidenceQuote
  if quote = [] then .reject .quoteNotFound (some value) (by decide)
  else
    match exactStarts stream quote with
    | [start] => bindValue E kind words owners start quote.length value false
    | _ :: _ :: _ => .reject .quoteNotUnique (some value) (by decide)
    | [] =>
      match bestWindows (scoredWindows E threshold stream quote) with
      | [] => .reject .quoteNotFound (some value) (by decide)
      | _ :: _ :: _ => .reject .quoteNotUnique (some value) (by decide)
      | [w] =>
        if kind.keepsDigits = true ∧
            digitRuns E.toUnicode (" ".intercalate quote) ≠ digitRuns E.toUnicode (windowText stream w.1 w.2) then
          .reject .quoteDigitsMismatch (some value) (by decide)
        else bindValue E kind words owners w.1 w.2 value true

def groundCandidate (E : GroundingOps) (threshold : ℚ) (kind : FieldKind T) (candidate : CandidateField)
    (document : DocumentText) : GroundingResult T :=
  match candidate.rawValue with
  | none => .reject .quoteNotFound none (by decide)
  | some raw =>
    match kind.normalize raw with
    | none => .reject .valueNormalizationFailed none (by decide)
    | some value =>
      match candidate.page.bind fun p => document.pages[p]? with
      | none => .reject .pageOutOfRange (some value) (by decide)
      | some page =>
        match candidate.evidenceQuote with
        | none => .reject .quoteNotFound (some value) (by decide)
        | some quote =>
          if strip quote = "" then .reject .quoteNotFound (some value) (by decide)
          else groundOnPage E threshold kind (sortedWords page) quote value

/-- The result is bound to a run of the words. -/
def GroundingResult.BoundTo (E : GroundingOps) (kind : FieldKind T) (words : List WordToken) (value : T)
    (g : GroundingResult T) : Prop :=
  g.normalizedValue = some value ∧ ∃ left right, PrintedOn E kind words value g.evidence left right

variable {kind : FieldKind T} {words : List WordToken} {value : T} {threshold : ℚ}

theorem bindBetween_bound {first last : Fin words.length} {fuzzy : Bool}
    (h : (bindBetween E kind words first last value fuzzy).grounded = true) :
    (bindBetween E kind words first last value fuzzy).BoundTo E kind words value := by
  unfold bindBetween at h ⊢
  split at h
  · simp at h
  · rename_i m hm
    have hmem : m ∈ valueMatches kind words first (last + 1) value := by simp [hm]
    exact ⟨rfl, m.1, m.2, printedOn_of_mem last.isLt hmem⟩
  · simp at h

theorem bindValue_bound {owners : List (Fin words.length)} {start length : ℕ} {fuzzy : Bool}
    (h : (bindValue E kind words owners start length value fuzzy).grounded = true) :
    (bindValue E kind words owners start length value fuzzy).BoundTo E kind words value := by
  unfold bindValue at h ⊢
  split at h
  · exact bindBetween_bound h
  · simp at h

theorem groundOnPage_bound {quote : String} (h : (groundOnPage E threshold kind words quote value).grounded = true) :
    (groundOnPage E threshold kind words quote value).BoundTo E kind words value := by
  simp only [groundOnPage] at h ⊢
  split at h
  · simp at h
  · rename_i hquote
    rw [if_neg hquote]
    split at h
    · exact bindValue_bound h
    · simp at h
    · split at h
      · simp at h
      · simp at h
      · split at h
        · simp at h
        · rename_i hdigits
          rw [if_neg hdigits]
          exact bindValue_bound h

/-- A candidate is rejected, or its quote is searched on the page it names for its value. -/
theorem groundCandidate_cases (E : GroundingOps) (threshold : ℚ) (kind : FieldKind T) (candidate : CandidateField)
    (document : DocumentText) :
    (groundCandidate E threshold kind candidate document).grounded = false ∨
      ∃ p page raw quote value, candidate.page = some p ∧ document.pages[p]? = some page ∧
        candidate.rawValue = some raw ∧ kind.normalize raw = some value ∧ candidate.evidenceQuote = some quote ∧
        groundCandidate E threshold kind candidate document =
          groundOnPage E threshold kind (sortedWords page) quote value := by
  unfold groundCandidate
  split
  · exact .inl rfl
  · rename_i raw hraw
    split
    · exact .inl rfl
    · rename_i value hvalue
      split
      · exact .inl rfl
      · rename_i page hpage
        obtain ⟨p, hp, hpage⟩ := Option.bind_eq_some_iff.1 hpage
        split
        · exact .inl rfl
        · rename_i quote hquote
          split
          · exact .inl rfl
          · exact .inr ⟨p, page, raw, quote, value, hp, hpage, hraw, hvalue, hquote, rfl⟩

/-- The candidate grounds this value, with this evidence. -/
def Grounds (E : GroundingOps) (threshold : ℚ) (kind : FieldKind T) (candidate : CandidateField)
    (document : DocumentText) (value : T) (evidence : List EvidenceSpan) : Prop :=
  (groundCandidate E threshold kind candidate document).grounded = true ∧
    (groundCandidate E threshold kind candidate document).normalizedValue = some value ∧
    (groundCandidate E threshold kind candidate document).evidence = evidence

/-- The page the candidate names has a run of whole words the value is read from. -/
def PrintedOnQuotedPage (E : GroundingOps) (kind : FieldKind T) (candidate : CandidateField)
    (document : DocumentText) (value : T) (evidence : List EvidenceSpan) : Prop :=
  ∃ p page left right, candidate.page = some p ∧ document.pages[p]? = some page ∧
    PrintedOn E kind (sortedWords page) value evidence left right

theorem Grounds.printed {candidate : CandidateField} {document : DocumentText} {evidence : List EvidenceSpan}
    (h : Grounds E threshold kind candidate document value evidence) :
    PrintedOnQuotedPage E kind candidate document value evidence := by
  obtain ⟨hgrounded, hvalue, rfl⟩ := h
  rcases groundCandidate_cases E threshold kind candidate document with hno |
    ⟨p, page, raw, quote, v, hp, hpage, -, -, -, heq⟩
  · rw [hno] at hgrounded
    exact absurd hgrounded (by decide)
  · rw [heq] at hgrounded hvalue ⊢
    obtain ⟨hv, left, right, hprinted⟩ := groundOnPage_bound hgrounded
    obtain rfl : v = value := Option.some.inj (hv.symm.trans hvalue)
    exact ⟨p, page, left, right, hp, hpage, hprinted⟩

end InvoiceOps
