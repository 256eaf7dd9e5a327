import InvoiceOps.Extraction.Grounding
import InvoiceOps.Lib.Regex
import InvoiceOps.Lib.Sections

/-! The layout of tables (`extraction/table_layout.py`): words are grouped into visual rows, a row may be the
header of a table, and the anchors of a header divide the width of the page into columns. -/

namespace InvoiceOps

open Text

/-- The further operations that table extraction uses: lower case, the digits of `str.isdigit`, sums, products
and quotients of floats. The middle of two floats lies between them. -/
structure TableOps extends GroundingOps where
  lower : String → String
  isDigit : Char → Bool
  floatAdd : ℚ → ℚ → ℚ
  floatMul : ℚ → ℚ → ℚ
  floatDiv : ℚ → ℚ → ℚ
  between : ∀ a b, a ≤ b → a ≤ floatMid a b ∧ floatMid a b ≤ b

structure VisualRow where
  page : ℕ
  y0 : ℚ
  y1 : ℚ
  words : List WordToken
  nonempty : words ≠ []
deriving DecidableEq

inductive LineItemColumn
  | description
  | quantity
  | unitPrice
  | lineTotal
deriving DecidableEq, Repr

/-- The columns in the order they are defined. -/
def lineItemColumns : List LineItemColumn := [.description, .quantity, .unitPrice, .lineTotal]

structure ColumnAnchor where
  column : LineItemColumn
  bbox : BoundingBox
  centerX : ℚ
  matchedText : String
deriving DecidableEq

structure DetectedTableHeader where
  page : ℕ
  row : VisualRow
  columns : List ColumnAnchor
  score : ℕ
  three : 3 ≤ columns.length
  five : 5 ≤ score
deriving DecidableEq

structure ColumnRange where
  column : LineItemColumn
  x0 : ℚ
  x1 : ℚ
deriving DecidableEq

def headerAliases : LineItemColumn → List String
  | .description => ["description", "item", "item description", "particulars", "product", "product description", "service",
      "details"]
  | .quantity => ["qty", "quantity", "units", "unit qty"]
  | .unitPrice => ["unit price", "unit rate", "rate", "price/unit", "price each", "unit cost"]
  | .lineTotal => ["amount", "line total", "total amount", "net amount", "extended price", "value"]

def columnScore : LineItemColumn → ℕ
  | .description => 2
  | .quantity => 1
  | .unitPrice => 1
  | .lineTotal => 2

variable (E : TableOps)

/-- The floats `0.6` and `0.004`. -/
def defaultToleranceFactor : ℚ := 5404319552844595 / 9007199254740992

def leastTolerance : ℚ := 1152921504606847 / 288230376151711744

def verticalCenter (w : WordToken) : ℚ := E.floatMid w.bbox.y0 w.bbox.y1

def minimum : List ℚ → ℚ
  | [] => 0
  | x :: xs => xs.foldl min x

def maximum : List ℚ → ℚ
  | [] => 0
  | x :: xs => xs.foldl max x

/-- `statistics.median` -/
def median (xs : List ℚ) : ℚ :=
  let sorted := xs.insertionSort (· ≤ ·)
  let n := sorted.length
  if n % 2 = 1 then sorted.getD (n / 2) 0 else E.floatMid (sorted.getD (n / 2 - 1) 0) (sorted.getD (n / 2) 0)

def substantialVerticalOverlap (word : WordToken) (rowWords : List WordToken) : Bool :=
  let rowY0 := minimum (rowWords.map (·.bbox.y0))
  let rowY1 := maximum (rowWords.map (·.bbox.y1))
  let overlap := max 0 (E.floatSub (min word.bbox.y1 rowY1) (max word.bbox.y0 rowY0))
  let smallerHeight := min (E.floatSub word.bbox.y1 word.bbox.y0) (E.floatSub rowY1 rowY0)
  decide (0 < smallerHeight) && decide (1 / 2 ≤ E.floatDiv overlap smallerHeight)

/-- A word joins the current row. -/
def joinsRow (tolerance : ℚ) (word : WordToken) (current : List WordToken) : Bool :=
  decide (|E.floatSub (verticalCenter E word) (median E (current.map (verticalCenter E)))| ≤ tolerance) ||
    substantialVerticalOverlap E word current

abbrev WordGroup := {words : List WordToken // words ≠ []}

def WordGroup.of (word : WordToken) : WordGroup := ⟨[word], List.cons_ne_nil _ _⟩

def WordGroup.snoc (current : WordGroup) (word : WordToken) : WordGroup := ⟨current.1 ++ [word], by simp⟩

def groupFrom (tolerance : ℚ) (current : WordGroup) : List WordToken → List WordGroup
  | [] => [current]
  | word :: words =>
    if joinsRow E tolerance word current.1 then groupFrom tolerance (current.snoc word) words
    else current :: groupFrom tolerance (.of word) words

def groupWords (tolerance : ℚ) : List WordToken → List WordGroup
  | [] => []
  | word :: words => groupFrom E tolerance (.of word) words

def rowOrder (w : WordToken) : ℚ ×ₗ ℕ := toLex (w.bbox.x0, w.wordNumber)

theorem insertionSort_ne_nil {α : Type} {r : α → α → Prop} [DecidableRel r] {xs : List α} (h : xs ≠ []) :
    xs.insertionSort r ≠ [] := by
  intro hnil
  have hlength := congrArg List.length hnil
  rw [List.length_insertionSort, List.length_nil, List.length_eq_zero_iff] at hlength
  exact h hlength

def visualRow (page : ℕ) (group : WordGroup) : VisualRow :=
  let words := group.1.insertionSort fun w w' => rowOrder w ≤ rowOrder w'
  { page := page
    y0 := minimum (words.map (·.bbox.y0))
    y1 := maximum (words.map (·.bbox.y1))
    words := words
    nonempty := insertionSort_ne_nil group.2 }

def wordOrder (w : WordToken) : ℚ ×ₗ ℚ := toLex (verticalCenter E w, w.bbox.x0)

/-- The rows of one page; a page without words has none. -/
def pageRows (factor : ℚ) (page : PageText) : List VisualRow :=
  let heights := page.words.map fun w => E.floatSub w.bbox.y1 w.bbox.y0
  let tolerance := max leastTolerance (E.floatMul (median E heights) factor)
  let ordered := page.words.insertionSort fun w w' => wordOrder E w ≤ wordOrder E w'
  (groupWords E tolerance ordered).map (visualRow page.page)

def VisualRow.firstX (row : VisualRow) : ℚ := (row.words.map (·.bbox.x0)).headD 0

def VisualRow.order (row : VisualRow) : ℕ ×ₗ ℚ ×ₗ ℚ := toLex (row.page, toLex (row.y0, row.firstX))

/-- The rows of a document for a tolerance factor that is positive. -/
def visualRows (factor : ℚ) (document : DocumentText) : List VisualRow :=
  ((document.pages.insertionSort fun p p' => p.page ≤ p'.page).flatMap (pageRows E factor)).insertionSort
    fun r r' => r.order ≤ r'.order

def reconstructVisualRows (factor : ℚ) (document : DocumentText) : Except String (List VisualRow) :=
  if factor ≤ 0 then .error "visual-row tolerance factor must be positive" else .ok (visualRows E factor document)

/-- The texts of the words with blanks for what is not a letter, a digit or a slash. -/
def normalizeHeaderText (value : String) : String :=
  String.ofList (joinWords (blankRuns
    (fun c => ('a' ≤ c && c ≤ 'z') || ('0' ≤ c && c ≤ '9') || c == '/') false (E.lower value).toList))

/-- The stretches of at most three words, in the order they are tried. -/
def anchorStretches (row : VisualRow) : List (ℕ × ℕ) :=
  (List.range row.words.length).flatMap fun start =>
    (List.range (min 3 (row.words.length - start))).map fun k => (start, k + 1)

/-- The anchor of a stretch whose text is one of the labels, with its rank. -/
def anchorAt (row : VisualRow) (column : LineItemColumn) (stretch : ℕ × ℕ) : Option ((ℕ × ℕ) × ColumnAnchor) :=
  match slice row.words stretch.1 (stretch.1 + stretch.2) with
  | [] => none
  | word :: words =>
    let matchedText := normalizeHeaderText E (joinTexts (word :: words))
    if matchedText ∈ headerAliases column then
      let bbox := unionBbox word words
      some ((stretch.2, matchedText.length), ⟨column, bbox, E.floatMid bbox.x0 bbox.x1, joinTexts (word :: words)⟩)
    else none

/-- The later of two anchors counts only with a higher rank. -/
def betterAnchor (best : Option ((ℕ × ℕ) × ColumnAnchor)) (anchor : (ℕ × ℕ) × ColumnAnchor) :
    Option ((ℕ × ℕ) × ColumnAnchor) :=
  match best with
  | none => some anchor
  | some b => if toLex b.1 < toLex anchor.1 then some anchor else some b

def bestAnchor (row : VisualRow) (column : LineItemColumn) : Option ColumnAnchor :=
  (((anchorStretches row).filterMap (anchorAt E row column)).foldl betterAnchor none).map Prod.snd

def rowAnchors (row : VisualRow) : List ColumnAnchor := lineItemColumns.filterMap (bestAnchor E row)

def anchorOrder (a b : ColumnAnchor) : Prop := a.centerX ≤ b.centerX

instance : DecidableRel anchorOrder := fun a b => inferInstanceAs (Decidable (a.centerX ≤ b.centerX))

/-- The columns a header must have: a description, a total and one of the numbers between them. -/
def HeaderColumns (columns : List LineItemColumn) : Prop :=
  (.description ∈ columns ∧ .lineTotal ∈ columns) ∧ (.quantity ∈ columns ∨ .unitPrice ∈ columns)

instance (columns : List LineItemColumn) : Decidable (HeaderColumns columns) := inferInstanceAs (Decidable (_ ∧ _))

theorem HeaderColumns.three {columns : List LineItemColumn} (h : HeaderColumns columns) : 3 ≤ columns.length := by
  obtain ⟨⟨hdescription, htotal⟩, hnumber⟩ := h
  obtain ⟨c, hc, hne⟩ : ∃ c ∈ columns, c ≠ .description ∧ c ≠ .lineTotal := by
    rcases hnumber with h | h
    · exact ⟨_, h, by decide, by decide⟩
    · exact ⟨_, h, by decide, by decide⟩
  have hnodup : [LineItemColumn.description, .lineTotal, c].Nodup := by
    simp [hne.1.symm, hne.2.symm]
  have hsub : [LineItemColumn.description, .lineTotal, c] ⊆ columns := by
    simp [hdescription, htotal, hc]
  exact (hnodup.subperm hsub).length_le

theorem header_three {anchors : List ColumnAnchor} (h : HeaderColumns (anchors.map (·.column))) :
    3 ≤ (anchors.insertionSort anchorOrder).length := by
  rw [List.length_insertionSort, ← List.length_map (f := (·.column))]
  exact h.three

def detectTableHeader (row : VisualRow) : Option DetectedTableHeader :=
  let anchors := rowAnchors E row
  let columns := anchors.map (·.column)
  let score := (columns.map columnScore).sum
  if h : HeaderColumns columns ∧ 5 ≤ score then
    match anchors.find? (·.column = .description), anchors.find? (·.column = .lineTotal) with
    | some description, some lineTotal =>
      if lineTotal.centerX ≤ description.centerX then none
      else some ⟨row.page, row, anchors.insertionSort anchorOrder, score, header_three h.1, h.2⟩
    | _, _ => none
  else none

def inferColumnRanges (header : DetectedTableHeader) : List ColumnRange :=
  let anchors := header.columns.insertionSort anchorOrder
  let boundaries := List.zipWith (fun left right => E.floatMid left.centerX right.centerX) anchors anchors.tail
  List.zipWith3 ColumnRange.mk (anchors.map (·.column)) (0 :: boundaries) (boundaries ++ [1])

def columnAt (center : ℚ) : List ColumnRange → Option LineItemColumn
  | [] => none
  | r :: rest =>
    if r.x0 ≤ center ∧ center < r.x1 then some r.column
    else if rest = [] ∧ center = r.x1 then some r.column
    else columnAt center rest

def columnForWord (word : WordToken) (ranges : List ColumnRange) : Option LineItemColumn :=
  columnAt (E.floatMid word.bbox.x0 word.bbox.x1) ranges

section
variable {E : TableOps}

theorem flatten_groupFrom (tolerance : ℚ) (current : WordGroup) (words : List WordToken) :
    (groupFrom E tolerance current words).flatMap Subtype.val = current.1 ++ words := by
  induction words generalizing current with
  | nil => simp [groupFrom]
  | cons word words ih =>
    rw [groupFrom]
    split_ifs
    · rw [ih, WordGroup.snoc, List.append_assoc, List.singleton_append]
    · rw [List.flatMap_cons, ih, WordGroup.of, List.singleton_append]

theorem flatten_groupWords (tolerance : ℚ) (words : List WordToken) :
    (groupWords E tolerance words).flatMap Subtype.val = words := by
  cases words with
  | nil => rfl
  | cons word words => exact flatten_groupFrom tolerance (.of word) words

/-- Every word of a page is in one row of the page. -/
theorem pageRows_words (factor : ℚ) (page : PageText) :
    ((pageRows E factor page).flatMap (·.words)).Perm page.words := by
  unfold pageRows
  simp only [List.flatMap_map]
  refine (List.Perm.flatMap_left _ fun group _ => List.perm_insertionSort _ group.1).trans ?_
  rw [flatten_groupWords]
  exact List.perm_insertionSort _ _

theorem page_of_mem_pageRows {factor : ℚ} {page : PageText} {row : VisualRow} (h : row ∈ pageRows E factor page) :
    row.page = page.page := by
  obtain ⟨group, -, rfl⟩ := List.mem_map.1 h
  rfl

theorem visualRows_perm (factor : ℚ) (document : DocumentText) :
    (visualRows E factor document).Perm (document.pages.flatMap (pageRows E factor)) :=
  (List.perm_insertionSort _ _).trans ((List.perm_insertionSort _ _).flatMap_right _)

theorem pairwise_visualRows (factor : ℚ) (document : DocumentText) :
    (visualRows E factor document).Pairwise fun r r' => r.order ≤ r'.order := by
  have htotal : Std.Total fun r r' : VisualRow => r.order ≤ r'.order := ⟨fun r r' => le_total r.order r'.order⟩
  have htrans : IsTrans VisualRow fun r r' => r.order ≤ r'.order := ⟨fun _ _ _ => le_trans⟩
  exact List.pairwise_insertionSort _ _

/-- Every word of a document is in one row, a row of its page. -/
theorem visualRows_words (factor : ℚ) (document : DocumentText) :
    ((visualRows E factor document).flatMap (·.words)).Perm (document.pages.flatMap (·.words)) := by
  refine ((visualRows_perm factor document).flatMap_right _).trans ?_
  rw [List.flatMap_assoc]
  exact List.Perm.flatMap_left _ fun page _ => pageRows_words factor page

/-- The ranges from a place on, the last up to the edge of the page. -/
def rangesFrom (E : TableOps) (x0 : ℚ) : List ColumnAnchor → List ColumnRange
  | [] => []
  | [a] => [⟨a.column, x0, 1⟩]
  | a :: b :: rest => ⟨a.column, x0, E.floatMid a.centerX b.centerX⟩ :: rangesFrom E (E.floatMid a.centerX b.centerX) (b :: rest)

theorem zipWith3_ranges (x0 : ℚ) (anchors : List ColumnAnchor) (h : anchors ≠ []) :
    List.zipWith3 ColumnRange.mk (anchors.map (·.column))
        (x0 :: List.zipWith (fun left right => E.floatMid left.centerX right.centerX) anchors anchors.tail)
        (List.zipWith (fun left right => E.floatMid left.centerX right.centerX) anchors anchors.tail ++ [1]) =
      rangesFrom E x0 anchors := by
  induction anchors generalizing x0 with
  | nil => exact absurd rfl h
  | cons a anchors ih =>
    cases anchors with
    | nil => rfl
    | cons b rest =>
      have hrest := ih (E.floatMid a.centerX b.centerX) (List.cons_ne_nil b rest)
      rw [rangesFrom, ← hrest]
      rfl

theorem inferColumnRanges_eq (header : DetectedTableHeader) :
    inferColumnRanges E header = rangesFrom E 0 (header.columns.insertionSort anchorOrder) := by
  refine zipWith3_ranges 0 _ (insertionSort_ne_nil fun hnil => ?_)
  have hthree := header.three
  rw [hnil] at hthree
  exact absurd hthree (by decide)

theorem length_rangesFrom (x0 : ℚ) (anchors : List ColumnAnchor) : (rangesFrom E x0 anchors).length = anchors.length := by
  induction anchors generalizing x0 with
  | nil => rfl
  | cons a anchors ih =>
    cases anchors with
    | nil => rfl
    | cons b rest => simp only [rangesFrom, List.length_cons, ih]

theorem length_inferColumnRanges (header : DetectedTableHeader) :
    (inferColumnRanges E header).length = header.columns.length := by
  rw [inferColumnRanges_eq, length_rangesFrom, List.length_insertionSort]

/-- A place is in the range with this index; the last range ends with the page. -/
def InRange (ranges : List ColumnRange) (x : ℚ) (i : ℕ) : Prop :=
  ∃ r, ranges[i]? = some r ∧ r.x0 ≤ x ∧ (x < r.x1 ∨ i + 1 = ranges.length ∧ x = r.x1)

theorem le_of_mem_rangesFrom {x0 : ℚ} {anchors : List ColumnAnchor} (hsorted : anchors.Pairwise anchorOrder)
    (hfirst : ∀ a ∈ anchors.head?, x0 ≤ a.centerX) {r : ColumnRange} (hr : r ∈ rangesFrom E x0 anchors) : x0 ≤ r.x0 := by
  induction anchors generalizing x0 with
  | nil => simp [rangesFrom] at hr
  | cons a anchors ih =>
    cases anchors with
    | nil =>
      obtain rfl := List.mem_singleton.1 hr
      exact le_rfl
    | cons b rest =>
      obtain ⟨ha, hrest⟩ := List.pairwise_cons.1 hsorted
      obtain ⟨hleft, hright⟩ := E.between a.centerX b.centerX (ha b (List.mem_cons_self ..))
      rcases List.mem_cons.1 hr with rfl | hr
      · exact le_rfl
      · have hle := ih hrest (by simpa using hright) hr
        exact ((hfirst a rfl).trans hleft).trans hle

/-- Between its ends every place is in exactly one range, the one the column is read from. -/
theorem existsUnique_rangesFrom {x0 x : ℚ} {anchors : List ColumnAnchor} (hne : anchors ≠ [])
    (hsorted : anchors.Pairwise anchorOrder) (h0 : x0 ≤ x) (h1 : x ≤ 1) :
    (∃! i, InRange (rangesFrom E x0 anchors) x i) ∧
      ∃ i r, (rangesFrom E x0 anchors)[i]? = some r ∧ InRange (rangesFrom E x0 anchors) x i ∧
        columnAt x (rangesFrom E x0 anchors) = some r.column := by
  induction anchors generalizing x0 with
  | nil => exact absurd rfl hne
  | cons a anchors ih =>
    cases anchors with
    | nil =>
      have hin : InRange [⟨a.column, x0, 1⟩] x 0 := ⟨_, rfl, h0, by
        rcases h1.lt_or_eq with hlt | heq
        · exact Or.inl hlt
        · exact Or.inr ⟨rfl, heq⟩⟩
      refine ⟨⟨0, hin, ?_⟩, 0, _, rfl, hin, ?_⟩
      · rintro i ⟨r, hr, -⟩
        cases i with
        | zero => rfl
        | succ i => simp [rangesFrom] at hr
      · rcases h1.lt_or_eq with hlt | heq
        · simp [rangesFrom, columnAt, h0, hlt]
        · simp [rangesFrom, columnAt, heq]
    | cons b rest =>
      obtain ⟨ha, hrest⟩ := List.pairwise_cons.1 hsorted
      obtain ⟨-, hright⟩ := E.between a.centerX b.centerX (ha b (List.mem_cons_self ..))
      have hlength : (rangesFrom E (E.floatMid a.centerX b.centerX) (b :: rest)).length = rest.length + 1 := by
        rw [length_rangesFrom, List.length_cons]
      have hshift : ∀ i, InRange (rangesFrom E x0 (a :: b :: rest)) x (i + 1) ↔
          InRange (rangesFrom E (E.floatMid a.centerX b.centerX) (b :: rest)) x i := by
        intro i
        unfold InRange
        rw [rangesFrom, List.getElem?_cons_succ, List.length_cons, Nat.add_right_cancel_iff]
      by_cases hlt : x < E.floatMid a.centerX b.centerX
      · have hin : InRange (rangesFrom E x0 (a :: b :: rest)) x 0 := ⟨_, rfl, h0, Or.inl hlt⟩
        refine ⟨⟨0, hin, ?_⟩, 0, _, rfl, hin, ?_⟩
        · intro i hi
          cases i with
          | zero => rfl
          | succ i =>
            obtain ⟨r, hr, hle, -⟩ := (hshift i).1 hi
            have hge := le_of_mem_rangesFrom hrest (by simpa using hright) (List.mem_of_getElem? hr)
            exact absurd (hge.trans hle) (not_le.2 hlt)
        · rw [rangesFrom, columnAt, if_pos ⟨h0, hlt⟩]
      · obtain ⟨⟨i, hi, hunique⟩, j, r, hr, hj, hcolumn⟩ := ih (List.cons_ne_nil b rest) hrest (not_lt.1 hlt)
        refine ⟨⟨i + 1, (hshift i).2 hi, ?_⟩, j + 1, r, hr, (hshift j).2 hj, ?_⟩
        · intro k hk
          cases k with
          | zero =>
            obtain ⟨r', hr', -, hlast⟩ := hk
            obtain rfl : _ = r' := Option.some.inj hr'
            rcases hlast with hlast | ⟨hlast, -⟩
            · exact absurd hlast hlt
            · rw [rangesFrom, List.length_cons, hlength] at hlast
              omega
          | succ k => rw [hunique k ((hshift k).1 hk)]
        · have hne' : rangesFrom E (E.floatMid a.centerX b.centerX) (b :: rest) ≠ [] := by
            intro hnil
            rw [hnil] at hlength
            exact absurd hlength (by simp)
          rw [rangesFrom, columnAt, if_neg fun h => hlt h.2, if_neg fun h => hne' h.1, hcolumn]

theorem WordToken.center_unit (w : WordToken) : 0 ≤ E.floatMid w.bbox.x0 w.bbox.x1 ∧ E.floatMid w.bbox.x0 w.bbox.x1 ≤ 1 := by
  obtain ⟨hleft, hright⟩ := E.between _ _ w.bbox.ordered.1
  exact ⟨w.bbox.unit.1.1.trans hleft, hright.trans w.bbox.unit.2.1⟩

/-- The ranges of a header cover the width of the page, and every word has one column. -/
theorem inferColumnRanges_cover (header : DetectedTableHeader) :
    (∀ x : ℚ, 0 ≤ x → x ≤ 1 → ∃! i, InRange (inferColumnRanges E header) x i) ∧
      ∀ w : WordToken, ∃ i r, (inferColumnRanges E header)[i]? = some r ∧
        InRange (inferColumnRanges E header) (E.floatMid w.bbox.x0 w.bbox.x1) i ∧
        columnForWord E w (inferColumnRanges E header) = some r.column := by
  have htotal : Std.Total anchorOrder := ⟨fun a b => le_total a.centerX b.centerX⟩
  have htrans : IsTrans ColumnAnchor anchorOrder := ⟨fun _ _ _ => le_trans⟩
  have hne : header.columns.insertionSort anchorOrder ≠ [] := by
    refine insertionSort_ne_nil fun hnil => ?_
    have hthree := header.three
    rw [hnil] at hthree
    exact absurd hthree (by decide)
  have hsorted := List.pairwise_insertionSort anchorOrder header.columns
  rw [inferColumnRanges_eq]
  refine ⟨fun x h0 h1 => (existsUnique_rangesFrom hne hsorted h0 h1).1, fun w => ?_⟩
  obtain ⟨h0, h1⟩ := w.center_unit (E := E)
  exact (existsUnique_rangesFrom hne hsorted h0 h1).2

end

end InvoiceOps
