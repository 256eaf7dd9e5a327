import InvoiceOps.Extraction.Location

/-! The text lines of a document (`extraction/layout.py`). Words of one page, block and line make a line, and the lines are
in the order of the page. Each word is in one line, and the lines do not depend on the order in which the words are
listed as long as no two words, and no two lines, have the same place. -/

namespace InvoiceOps

open Text

structure TextLine where
  page : ℕ
  blockNumber : ℕ
  lineNumber : ℕ
  text : String
  bbox : BoundingBox
  words : List WordToken
  nonempty : words ≠ []

def DocumentText.words (document : DocumentText) : List WordToken := document.pages.flatMap (·.words)

def WordToken.lineKey (w : WordToken) : ℕ × ℕ × ℕ := (w.page, w.blockNumber, w.lineNumber)

def TextLine.key (line : TextLine) : ℕ × ℕ × ℕ := (line.page, line.blockNumber, line.lineNumber)

/-- The order of the words inside one line. -/
def lineOrder (w : WordToken) : ℕ ×ₗ ℚ := toLex (w.wordNumber, w.bbox.x0)

/-- The keys in the order of their first words. -/
def lineKeys (words : List WordToken) : List (ℕ × ℕ × ℕ) := (words.map WordToken.lineKey).reverse.dedup.reverse

def lineWords (words : List WordToken) (key : ℕ × ℕ × ℕ) : List WordToken :=
  (words.filter fun w => w.lineKey = key).insertionSort fun w w' => lineOrder w ≤ lineOrder w'

def textLine (key : ℕ × ℕ × ℕ) : List WordToken → Option TextLine
  | [] => none
  | w :: ws => some ⟨key.1, key.2.1, key.2.2, joinTexts (w :: ws), unionBbox w ws, w :: ws, List.cons_ne_nil w ws⟩

def TextLine.order (line : TextLine) : ℕ ×ₗ ℚ ×ₗ ℚ := toLex (line.page, toLex (line.bbox.y0, line.bbox.x0))

/-- The lines in the order of their first words. -/
def groupedLines (words : List WordToken) : List TextLine :=
  (lineKeys words).filterMap fun key => textLine key (lineWords words key)

def reconstructLines (document : DocumentText) : List TextLine :=
  (groupedLines document.words).insertionSort fun l l' => l.order ≤ l'.order

/-- What a line says of its words. -/
structure TextLine.Sound (line : TextLine) : Prop where
  place : ∀ w ∈ line.words, w.lineKey = line.key
  text : line.text = joinTexts line.words
  inside : ∀ w ∈ line.words, w.bbox.Inside line.bbox
  sorted : line.words.Pairwise fun w w' => lineOrder w ≤ lineOrder w'

section

variable {words : List WordToken} {key : ℕ × ℕ × ℕ} {w : WordToken} {line : TextLine}

theorem mem_lineKeys : key ∈ lineKeys words ↔ ∃ w ∈ words, w.lineKey = key := by
  rw [lineKeys, List.mem_reverse, List.mem_dedup, List.mem_reverse, List.mem_map]

theorem nodup_lineKeys (words : List WordToken) : (lineKeys words).Nodup :=
  List.nodup_reverse.2 (List.nodup_dedup _)

theorem mem_lineWords : w ∈ lineWords words key ↔ w ∈ words ∧ w.lineKey = key := by
  simp [lineWords, (List.perm_insertionSort _ _).mem_iff]

theorem pairwise_lineWords (words : List WordToken) (key : ℕ × ℕ × ℕ) :
    (lineWords words key).Pairwise fun w w' => lineOrder w ≤ lineOrder w' := by
  have htotal : Std.Total fun w w' : WordToken => lineOrder w ≤ lineOrder w' := ⟨fun w w' => le_total _ _⟩
  have htrans : IsTrans WordToken fun w w' => lineOrder w ≤ lineOrder w' := ⟨fun _ _ _ => le_trans⟩
  exact List.pairwise_insertionSort _ _

/-- The words of a key that occurs make a line of that key. -/
theorem textLine_lineWords (hkey : key ∈ lineKeys words) :
    ∃ line, textLine key (lineWords words key) = some line ∧ line.words = lineWords words key ∧ line.Sound ∧ line.key = key := by
  obtain ⟨w, hw, hwkey⟩ := mem_lineKeys.1 hkey
  have hmem : w ∈ lineWords words key := mem_lineWords.2 ⟨hw, hwkey⟩
  have hsorted := pairwise_lineWords words key
  have hplace : ∀ w' ∈ lineWords words key, w'.lineKey = key := fun w' hw' => (mem_lineWords.1 hw').2
  cases hwords : lineWords words key with
  | nil => exact absurd (hwords ▸ hmem) List.not_mem_nil
  | cons v vs =>
    rw [hwords] at hsorted hplace
    exact ⟨_, rfl, rfl, ⟨hplace, rfl, fun w' hw' => inside_unionBbox hw', hsorted⟩, rfl⟩

/-- Each key makes one line. -/
theorem map_key_groupedLines (words : List WordToken) : (groupedLines words).map TextLine.key = lineKeys words := by
  suffices h : ∀ ks : List (ℕ × ℕ × ℕ), ks ⊆ lineKeys words →
      (ks.filterMap fun key => textLine key (lineWords words key)).map TextLine.key = ks from h _ (List.Subset.refl _)
  intro ks
  induction ks with
  | nil => exact fun _ => rfl
  | cons k ks ih =>
    intro hks
    obtain ⟨hk, hks⟩ := List.cons_subset.1 hks
    obtain ⟨line, hline, -, -, hkey⟩ := textLine_lineWords hk
    rw [List.filterMap_cons, hline, List.map_cons, ih hks, hkey]

theorem flatMap_groupedLines (words : List WordToken) :
    (groupedLines words).flatMap (·.words) = (lineKeys words).flatMap (lineWords words) := by
  suffices h : ∀ ks : List (ℕ × ℕ × ℕ), ks ⊆ lineKeys words →
      (ks.filterMap fun key => textLine key (lineWords words key)).flatMap (·.words) = ks.flatMap (lineWords words) from
    h _ (List.Subset.refl _)
  intro ks
  induction ks with
  | nil => exact fun _ => rfl
  | cons k ks ih =>
    intro hks
    obtain ⟨hk, hks⟩ := List.cons_subset.1 hks
    obtain ⟨line, hline, hwords, -⟩ := textLine_lineWords hk
    rw [List.filterMap_cons, hline, List.flatMap_cons, List.flatMap_cons, hwords, ih hks]

theorem sound_of_mem_groupedLines (h : line ∈ groupedLines words) :
    line.Sound ∧ line.key ∈ lineKeys words ∧ line.words = lineWords words line.key := by
  obtain ⟨key, hkey, hline⟩ := List.mem_filterMap.1 h
  obtain ⟨line', hline', hwords, hsound, rfl⟩ := textLine_lineWords hkey
  obtain rfl := Option.some.inj (hline'.symm.trans hline)
  exact ⟨hsound, hkey, hwords⟩

theorem mem_reconstructLines {document : DocumentText} : line ∈ reconstructLines document ↔ line ∈ groupedLines document.words :=
  (List.perm_insertionSort _ _).mem_iff

/-- The words of a document are shared out among its lines. -/
theorem reconstructLines_words (document : DocumentText) :
    ((reconstructLines document).flatMap (·.words)).Perm document.words := by
  have hlines : ((reconstructLines document).flatMap (·.words)).Perm ((groupedLines document.words).flatMap (·.words)) :=
    (List.perm_insertionSort _ _).flatMap_right _
  have hsort : ((lineKeys document.words).flatMap (lineWords document.words)).Perm
      ((lineKeys document.words).flatMap fun key => document.words.filter fun w => w.lineKey = key) :=
    List.Perm.flatMap_left _ fun key _ => List.perm_insertionSort _ _
  rw [flatMap_groupedLines] at hlines
  exact hlines.trans (hsort.trans (Lists.flatMap_filter_key_perm (nodup_lineKeys _)
    fun w hw => mem_lineKeys.2 ⟨w, hw, rfl⟩))

/-- No two words of one line have the same number and left edge. -/
def Placed (words : List WordToken) : Prop := (words.map fun w => (w.lineKey, lineOrder w)).Nodup

theorem lineWords_perm {words' : List WordToken} (hperm : words.Perm words') (hplaced : Placed words) (key : ℕ × ℕ × ℕ) :
    lineWords words key = lineWords words' key := by
  refine Lists.insertionSort_eq_of_perm (hperm.filter _) ?_
  have hfiltered : ((words.filter fun w => w.lineKey = key).map fun w => (w.lineKey, lineOrder w)).Nodup :=
    hplaced.sublist ((List.filter_sublist).map _)
  have hsame : (words.filter fun w => w.lineKey = key).map (fun w => (w.lineKey, lineOrder w)) =
      ((words.filter fun w => w.lineKey = key).map lineOrder).map fun o => (key, o) := by
    rw [List.map_map]
    refine List.map_congr_left fun w hw => ?_
    rw [← of_decide_eq_true (List.mem_filter.1 hw).2]
    rfl
  rw [hsame] at hfiltered
  exact hfiltered.of_map _

theorem groupedLines_perm {words' : List WordToken} (hperm : words.Perm words') (hplaced : Placed words) :
    (groupedLines words).Perm (groupedLines words') := by
  have hkeys : (lineKeys words).Perm (lineKeys words') := by
    rw [List.perm_ext_iff_of_nodup (nodup_lineKeys _) (nodup_lineKeys _)]
    intro key
    rw [mem_lineKeys, mem_lineKeys]
    simp only [hperm.mem_iff]
  have hwords : (fun key => textLine key (lineWords words key)) = fun key => textLine key (lineWords words' key) := by
    funext key
    rw [lineWords_perm hperm hplaced]
  unfold groupedLines
  rw [hwords]
  exact hkeys.filterMap _

end

/-- The lines of a document share its words out, each line with words of its own place in their order. Documents that list
the same words in another order, or on other pages, have the same lines, when no two words of a line have the same number
and left edge and no two lines of a page the same corner. -/
theorem reconstructLines_law (document : DocumentText) :
    ((reconstructLines document).flatMap (·.words)).Perm document.words ∧
    (∀ line ∈ reconstructLines document, line.Sound) ∧
    ((reconstructLines document).map TextLine.key).Nodup ∧
    ∀ document' : DocumentText, document.words.Perm document'.words → Placed document.words →
      ((reconstructLines document).map TextLine.order).Nodup → reconstructLines document' = reconstructLines document := by
  refine ⟨reconstructLines_words document, fun line hline => (sound_of_mem_groupedLines (mem_reconstructLines.1 hline)).1,
    ?_, fun document' hperm hplaced horder => ?_⟩
  · refine ((List.perm_insertionSort _ _).map _).nodup_iff.2 ?_
    rw [map_key_groupedLines]
    exact nodup_lineKeys _
  · have hnodup : ((groupedLines document.words).map TextLine.order).Nodup :=
      ((List.perm_insertionSort _ _).map _).nodup_iff.1 horder
    exact (Lists.insertionSort_eq_of_perm (groupedLines_perm hperm hplaced) hnodup).symm

/-- The words of a line, listed from the right. -/
theorem reconstructLines_law_reversed :
    Placed (DocumentText.mk [⟨0, [leftWord "Tax:", rightWord "7"]⟩]).words ∧
    (reconstructLines ⟨[⟨0, [leftWord "Tax:", rightWord "7"]⟩]⟩).map (·.text) = ["Tax: 7"] ∧
    reconstructLines ⟨[⟨0, [rightWord "7", leftWord "Tax:"]⟩]⟩ = reconstructLines ⟨[⟨0, [leftWord "Tax:", rightWord "7"]⟩]⟩ := by
  have hplaced : Placed (DocumentText.mk [⟨0, [leftWord "Tax:", rightWord "7"]⟩]).words := by
    unfold Placed
    decide +kernel
  exact ⟨hplaced, by decide +kernel, (reconstructLines_law _).2.2.2 ⟨[⟨0, [rightWord "7", leftWord "Tax:"]⟩]⟩
    (List.Perm.swap ..) hplaced (by decide +kernel)⟩

end InvoiceOps
