import InvoiceOps.Extraction.LineItems
import InvoiceOps.Schemas.Cases

/-! The lines of a purchase order (`_purchase_order_rows` in `extraction/supporting.py`). The rows below the header
of a table are cut into cells and become lines. A second pass takes back the line numbers that more than one line
has; it writes into the list it goes through and knows of the earlier lines only where a number came first. -/

namespace InvoiceOps

open Text

inductive PoColumn
  | lineNumber
  | description
  | quantity
  | unitPrice
  | lineTotal
deriving DecidableEq, Repr

def poColumns : List PoColumn := [.lineNumber, .description, .quantity, .unitPrice, .lineTotal]

/-- `_PO_LINE_HEADERS` -/
def poLineHeaders : PoColumn → List String
  | .lineNumber => ["line", "line no", "line number", "item no", "sr no", "s no", "#"]
  | .description => ["description", "item", "product", "details"]
  | .quantity => ["quantity", "qty", "ordered", "ordered qty"]
  | .unitPrice => ["unit price", "rate", "price"]
  | .lineTotal => ["amount", "line total", "total"]

/-- `^\s*(?:sub\s*total|…|total)\b` -/
def poTableFooter : Regex.Pattern :=
  .seq spaces (.seq (.oneOf [.seq (letters "sub") (.seq spaces (letters "total")), letters "subtotal", letters "tax",
    letters "discount", .seq (letters "amount") (.seq blanks (letters "due")),
    .seq (letters "grand") (.seq blanks (letters "total")), letters "total"]) .boundary)

variable (E : TableOps)

/-- `normalize_identifier` -/
def normalizeIdentifier (value : String) : String :=
  String.ofList ((E.upper value).toList.filter fun c => ('A' ≤ c && c ≤ 'Z') || c.isDigit)

/-- The middle of a stretch of one or two words. -/
def stretchCenter : List WordToken → ℚ
  | [] => 0
  | [w] => E.floatMid w.bbox.x0 w.bbox.x1
  | w :: w' :: _ => E.floatMid (E.floatMid w.bbox.x0 w.bbox.x1) (E.floatMid w'.bbox.x0 w'.bbox.x1)

/-- The columns that a stretch of words is a label of and that have no anchor yet. -/
def addAnchors (anchors : List (PoColumn × ℚ)) (segment : List WordToken) : List (PoColumn × ℚ) :=
  let normalized := String.ofList ((E.lower (normalizeWhitespace (joinTexts segment))).toList.filter (· ≠ '.'))
  poColumns.foldl (fun anchors name =>
    if name ∉ anchors.map Prod.fst ∧ normalized ∈ poLineHeaders name then anchors ++ [(name, stretchCenter E segment)]
    else anchors) anchors

def poHeaderAnchors (row : VisualRow) : Option (List (PoColumn × ℚ)) :=
  let anchors := (List.range row.words.length).foldl (fun anchors index =>
    addAnchors E (addAnchors E anchors (slice row.words index (index + 2))) (slice row.words index (index + 1))) []
  let names := anchors.map Prod.fst
  if (.description ∈ names ∧ .lineTotal ∈ names) ∧ (.quantity ∈ names ∨ .unitPrice ∈ names) then some anchors else none

def poBoundaries (anchors : List (PoColumn × ℚ)) : List (PoColumn × ℚ × ℚ) :=
  let ordered := anchors.insertionSort fun a b => a.2 ≤ b.2
  let cuts := List.zipWith (fun left right => E.floatMid left.2 right.2) ordered ordered.tail
  List.zipWith3 (fun name x0 x1 => (name, x0, x1)) (ordered.map Prod.fst) (0 :: cuts) (cuts ++ [1])

/-- The words of a row in one column: of two columns that meet in a place the first has it. -/
def poCell (boundaries : List (PoColumn × ℚ × ℚ)) (row : VisualRow) (name : PoColumn) : List WordToken :=
  row.words.filter fun w =>
    let center := E.floatMid w.bbox.x0 w.bbox.x1
    (boundaries.find? fun b => decide (b.2.1 ≤ center ∧ center ≤ b.2.2)).map Prod.fst = some name

def poNumber : List WordToken → Option Decimal
  | [] => none
  | word :: words => parseMoney (joinTexts (word :: words))

theorem poNumber_words {words : List WordToken} (h : (poNumber words).isSome = true) : words ≠ [] := by
  rintro rfl
  simp [poNumber] at h

theorem wordsText_words {words : List WordToken} (h : wordsText words ≠ "") : words ≠ [] := by
  rintro rfl
  exact h (by decide)

def missingText : ExtractedField String := ⟨none, .missing, [], none, by simp, by simp⟩

/-- `text_field`: an empty text is no text. -/
def poTextField (words : List WordToken) (value ruleId : String) (h : value ≠ "" → words ≠ []) : ExtractedField String :=
  if hvalue : value = "" then missingText
  else ⟨some value, .extracted, evidenceFromWords E.toGroundingOps words, some ruleId,
    fun _ => ⟨rfl, evidenceFromWords_ne_nil (h hvalue)⟩, by simp⟩

def poLineNumber (words : List WordToken) : String :=
  if wordsText words = "" then "" else normalizeIdentifier E (wordsText words)

theorem poLineNumber_words {words : List WordToken} (h : poLineNumber E words ≠ "") : words ≠ [] := by
  refine wordsText_words fun hempty => h ?_
  rw [poLineNumber, if_pos hempty]

/-- The line that a row with these cells becomes. -/
def poLine (cells : PoColumn → List WordToken) : ExtractedPurchaseOrderLine where
  lineNumber := poTextField E (cells .lineNumber) (poLineNumber E (cells .lineNumber))
    "purchase_order.line.line_number.column.v2" (poLineNumber_words E)
  description := poTextField E (cells .description) (wordsText (cells .description))
    "purchase_order.line.description.column.v2" wordsText_words
  orderedQuantity := decimalField E (cells .quantity) (poNumber (cells .quantity))
    "purchase_order.line.quantity.column.v2" poNumber_words
  unitPrice := decimalField E (cells .unitPrice) (poNumber (cells .unitPrice))
    "purchase_order.line.unit_price.column.v2" poNumber_words
  lineTotal := decimalField E (cells .lineTotal) (poNumber (cells .lineTotal))
    "purchase_order.line.line_total.column.v2" poNumber_words

/-- A line with the words of a further row at the end of its description. -/
def wrapDescription (line : ExtractedPurchaseOrderLine) (old : String) (words : List WordToken) (h : words ≠ []) :
    ExtractedPurchaseOrderLine :=
  { line with
    description := ⟨some (old ++ " " ++ wordsText words), .extracted,
      line.description.evidence ++ evidenceFromWords E.toGroundingOps words,
      some "purchase_order.line.description.wrapped.v2",
      fun _ => ⟨rfl, by simp [evidenceFromWords_ne_nil h]⟩, by simp⟩ }

/-- The float `0.045`. -/
def wrappedRowGap : ℚ := 3242591731706757 / 72057594037927936

/-- The variables of the loop over the rows; before the first line there is no previous page. -/
structure PoScan where
  result : List ExtractedPurchaseOrderLine
  boundaries : List (PoColumn × ℚ × ℚ)
  previousPage : Option ℕ
  previousY1 : ℚ

def PoScan.start : PoScan := ⟨[], [], none, 0⟩

/-- A row with a description alone belongs to the line before it when it is close. -/
def continuePoLine (s : PoScan) (row : VisualRow) (words : List WordToken) (h : words ≠ []) : PoScan :=
  match s.result.getLast? with
  | none => s
  | some line =>
    if some row.page = s.previousPage ∧
        0 ≤ E.floatSub row.y0 s.previousY1 ∧ E.floatSub row.y0 s.previousY1 ≤ wrappedRowGap then
      match line.description.value with
      | none => s
      | some old => { s with result := s.result.dropLast ++ [wrapDescription E line old words h], previousY1 := row.y1 }
    else s

/-- The columns of amounts. -/
def poNumberColumns : List PoColumn := [.quantity, .unitPrice, .lineTotal]

/-- A row with these cells, in a table. -/
def addPoRow (s : PoScan) (row : VisualRow) (cells : PoColumn → List WordToken) : PoScan :=
  if hdescription : wordsText (cells .description) = "" then s
  else if cells .lineNumber = [] ∧ poNumberColumns.all (fun name => cells name == []) = true then
    continuePoLine E s row (cells .description) (wordsText_words hdescription)
  -- an amount that cannot be read leaves it open which row the others belong to
  else if poNumberColumns.all (fun name => (poNumber (cells name)).isNone) = true ∨
      poNumberColumns.any (fun name => cells name != [] && (poNumber (cells name)).isNone) = true then s
  else ⟨s.result ++ [poLine E cells], s.boundaries, some row.page, row.y1⟩

def scanPoRow (s : PoScan) (row : VisualRow) : PoScan :=
  match poHeaderAnchors E row with
  | some anchors => { s with boundaries := poBoundaries E anchors }
  | none =>
    if s.boundaries = [] then s
    else if (Regex.matchAt E.isWord poTableFooter (none, (rowText row).toList)).isSome then { s with boundaries := [] }
    else addPoRow E s row (poCell E s.boundaries row)

/-- The lines as they are printed. -/
def printedRows (document : DocumentText) : List ExtractedPurchaseOrderLine :=
  ((visualRows E defaultToleranceFactor document).foldl (scanPoRow E) .start).result

/-- The line without its number, the evidence of which it keeps. -/
def ExtractedPurchaseOrderLine.demoted (line : ExtractedPurchaseOrderLine) : ExtractedPurchaseOrderLine :=
  { line with
    lineNumber := ⟨none, .ambiguous, line.lineNumber.evidence, some "purchase_order.line.number.duplicate.v2",
      by simp, by simp⟩ }

/-- One turn of the loop: the numbers seen so far with the index of their first line, and the lines. -/
def demoteAt (s : List (String × ℕ) × List ExtractedPurchaseOrderLine) (index : ℕ) :
    List (String × ℕ) × List ExtractedPurchaseOrderLine :=
  match s.2[index]?.bind (·.lineNumber.value) with
  | none => s
  | some number =>
    match s.1.find? (·.1 = number) with
    | some first => (s.1, (s.2.modify first.2 (·.demoted)).modify index (·.demoted))
    | none => (s.1 ++ [(number, index)], s.2)

def demoteDuplicates (rows : List ExtractedPurchaseOrderLine) : List ExtractedPurchaseOrderLine :=
  ((List.range rows.length).foldl demoteAt ([], rows)).2

def purchaseOrderRows (document : DocumentText) : List ExtractedPurchaseOrderLine :=
  demoteDuplicates (printedRows E document)

section
variable {E : TableOps} {rows : List ExtractedPurchaseOrderLine}

theorem status_poTextField {words : List WordToken} {value ruleId : String} (h : value ≠ "" → words ≠ []) :
    (poTextField E words value ruleId h).status ≠ .ambiguous := by
  unfold poTextField
  split_ifs
  · simp [missingText]
  · simp

theorem status_poLine (cells : PoColumn → List WordToken) : (poLine E cells).lineNumber.status ≠ .ambiguous := by
  simp only [poLine]
  exact status_poTextField (poLineNumber_words E)

theorem continuePoLine_cases (s : PoScan) (row : VisualRow) (words : List WordToken) (h : words ≠ []) :
    (continuePoLine E s row words h).result = s.result ∨ ∃ line old, s.result.getLast? = some line ∧
      (continuePoLine E s row words h).result = s.result.dropLast ++ [wrapDescription E line old words h] := by
  unfold continuePoLine
  split
  · exact Or.inl rfl
  · rename_i line hlast
    split_ifs
    · split
      · exact Or.inl rfl
      · rename_i old _
        exact Or.inr ⟨line, old, hlast, rfl⟩
    · exact Or.inl rfl

/-- A row changes nothing, continues the last line, or becomes a line. -/
theorem addPoRow_cases (s : PoScan) (row : VisualRow) (cells : PoColumn → List WordToken) :
    (addPoRow E s row cells).result = s.result ∨
      (∃ line old words h, s.result.getLast? = some line ∧
        (addPoRow E s row cells).result = s.result.dropLast ++ [wrapDescription E line old words h]) ∨
      (addPoRow E s row cells).result = s.result ++ [poLine E cells] := by
  unfold addPoRow
  split_ifs with hdescription hcontinues hskip
  · exact Or.inl rfl
  · rcases continuePoLine_cases s row _ (wordsText_words hdescription) with h | ⟨line, old, hlast, h⟩
    · exact Or.inl h
    · exact Or.inr (Or.inl ⟨line, old, cells .description, wordsText_words hdescription, hlast, h⟩)
  · exact Or.inl rfl
  · exact Or.inr (Or.inr rfl)

theorem scanPoRow_cases (s : PoScan) (row : VisualRow) :
    (scanPoRow E s row).result = s.result ∨ ∃ cells, scanPoRow E s row = addPoRow E s row cells := by
  unfold scanPoRow
  split
  · exact Or.inl rfl
  · split_ifs
    · exact Or.inl rfl
    · exact Or.inl rfl
    · exact Or.inr ⟨_, rfl⟩

theorem addPoRow_status {s : PoScan} {row : VisualRow} {cells : PoColumn → List WordToken}
    (h : ∀ line ∈ s.result, line.lineNumber.status ≠ .ambiguous) :
    ∀ line ∈ (addPoRow E s row cells).result, line.lineNumber.status ≠ .ambiguous := by
  rcases addPoRow_cases (E := E) s row cells with heq | ⟨last, old, words, hwords, hlast, heq⟩ | heq
  · rw [heq]
    exact h
  · -- the line that is continued keeps its number
    rw [heq]
    intro line hline
    rcases List.mem_append.1 hline with hline | hline
    · exact h line (List.mem_of_mem_dropLast hline)
    · rw [List.mem_singleton.1 hline]
      exact h last (List.mem_of_getLast? hlast)
  · rw [heq]
    intro line hline
    rcases List.mem_append.1 hline with hline | hline
    · exact h line hline
    · rw [List.mem_singleton.1 hline]
      exact status_poLine cells

theorem scanPoRow_status {s : PoScan} {row : VisualRow} (h : ∀ line ∈ s.result, line.lineNumber.status ≠ .ambiguous) :
    ∀ line ∈ (scanPoRow E s row).result, line.lineNumber.status ≠ .ambiguous := by
  rcases scanPoRow_cases (E := E) s row with heq | ⟨cells, heq⟩
  · rw [heq]
    exact h
  · rw [heq]
    exact addPoRow_status h

theorem printedRows_status (document : DocumentText) :
    ∀ line ∈ printedRows E document, line.lineNumber.status ≠ .ambiguous := by
  have hstart : ∀ line ∈ PoScan.start.result, line.lineNumber.status ≠ .ambiguous := by simp [PoScan.start]
  exact List.foldlRecOn _ (scanPoRow E) (motive := fun s => ∀ line ∈ s.result, line.lineNumber.status ≠ .ambiguous)
    hstart fun s hs row _ => scanPoRow_status hs

/-- The number printed on a line. -/
def numberAt (rows : List ExtractedPurchaseOrderLine) (i : ℕ) : Option String := rows[i]?.bind (·.lineNumber.value)

/-- Another of the first `k` lines has the number of line `i`. -/
def RepeatedBelow (rows : List ExtractedPurchaseOrderLine) (k i : ℕ) : Prop :=
  ∃ n j, (i < k ∧ numberAt rows i = some n) ∧ (j < k ∧ numberAt rows j = some n) ∧ j ≠ i

/-- After `k` turns: `seen` has the first line of every number, and the lines of repeated numbers are demoted. -/
structure DemotionInv (rows : List ExtractedPurchaseOrderLine) (k : ℕ)
    (s : List (String × ℕ) × List ExtractedPurchaseOrderLine) : Prop where
  seen : ∀ p, p ∈ s.1 ↔ p.2 < k ∧ numberAt rows p.2 = some p.1 ∧ ∀ j < p.2, numberAt rows j ≠ some p.1
  demoted : ∀ i, RepeatedBelow rows k i → s.2[i]? = rows[i]?.map (·.demoted)
  kept : ∀ i, ¬RepeatedBelow rows k i → s.2[i]? = rows[i]?

theorem repeatedBelow_succ {k i : ℕ} : RepeatedBelow rows (k + 1) i ↔ RepeatedBelow rows k i ∨
    ∃ n, numberAt rows k = some n ∧ ∃ j < k, numberAt rows j = some n ∧ (i = k ∨ i < k ∧ numberAt rows i = some n) := by
  constructor
  · rintro ⟨n, j, ⟨hi, hni⟩, ⟨hj, hnj⟩, hne⟩
    rcases Nat.lt_succ_iff_lt_or_eq.1 hi with hi | rfl
    · rcases Nat.lt_succ_iff_lt_or_eq.1 hj with hj | rfl
      · exact Or.inl ⟨n, j, ⟨hi, hni⟩, ⟨hj, hnj⟩, hne⟩
      · exact Or.inr ⟨n, hnj, i, hi, hni, Or.inr ⟨hi, hni⟩⟩
    · exact Or.inr ⟨n, hni, j, by omega, hnj, Or.inl rfl⟩
  · rintro (⟨n, j, ⟨hi, hni⟩, ⟨hj, hnj⟩, hne⟩ | ⟨n, hnk, j, hj, hnj, rfl | ⟨hi, hni⟩⟩)
    · exact ⟨n, j, ⟨by omega, hni⟩, ⟨by omega, hnj⟩, hne⟩
    · exact ⟨n, j, ⟨by omega, hnk⟩, ⟨by omega, hnj⟩, by omega⟩
    · exact ⟨n, k, ⟨by omega, hni⟩, ⟨by omega, hnk⟩, by omega⟩

namespace DemotionInv

variable {k : ℕ} {s : List (String × ℕ) × List ExtractedPurchaseOrderLine} {n : String}

theorem demoted_demoted (line : ExtractedPurchaseOrderLine) : line.demoted.demoted = line.demoted := rfl

theorem map_demoted (h : DemotionInv rows k s) (i : ℕ) : s.2[i]?.map (·.demoted) = rows[i]?.map (·.demoted) := by
  by_cases hrepeated : RepeatedBelow rows k i
  · rw [h.demoted i hrepeated, Option.map_map]
    rfl
  · rw [h.kept i hrepeated]

theorem number (h : DemotionInv rows k s) : s.2[k]?.bind (·.lineNumber.value) = numberAt rows k := by
  have hnot : ¬RepeatedBelow rows k k := fun ⟨_, _, hk, _⟩ => lt_irrefl k hk.1
  rw [h.kept k hnot, numberAt]

/-- A number that a line before has is in `seen`. -/
theorem exists_first (h : DemotionInv rows k s) {j : ℕ} (hj : j < k) (hnumber : numberAt rows j = some n) :
    ∃ first, (n, first) ∈ s.1 := by
  classical
  have hex : ∃ i, numberAt rows i = some n := ⟨j, hnumber⟩
  refine ⟨Nat.find hex, (h.seen _).2 ⟨?_, Nat.find_spec hex, fun i hi => Nat.find_min hex hi⟩⟩
  exact (Nat.find_min' hex hnumber).trans_lt hj

/-- Nothing is repeated by a line without a number, or with one that no line before has. -/
theorem fresh (h : DemotionInv rows k s) (hfresh : ∀ j < k, ∀ n, numberAt rows k = some n → numberAt rows j ≠ some n)
    {seen : List (String × ℕ)}
    (hseen : ∀ p, p ∈ seen ↔ p ∈ s.1 ∨ p.2 = k ∧ numberAt rows k = some p.1) : DemotionInv rows (k + 1) (seen, s.2) := by
  have hsame : ∀ i, RepeatedBelow rows (k + 1) i ↔ RepeatedBelow rows k i := by
    intro i
    rw [repeatedBelow_succ, or_iff_left]
    rintro ⟨n, hnk, j, hj, hnj, -⟩
    exact hfresh j hj n hnk hnj
  refine ⟨fun p => ?_, fun i hi => h.demoted i ((hsame i).1 hi), fun i hi => h.kept i fun h' => hi ((hsame i).2 h')⟩
  rw [hseen, h.seen]
  constructor
  · rintro (⟨hlt, hnumber, hfirst⟩ | ⟨heq, hnumber⟩)
    · exact ⟨by omega, hnumber, hfirst⟩
    · rw [heq]
      exact ⟨Nat.lt_succ_self k, hnumber, fun j hj => hfresh j hj p.1 hnumber⟩
  · rintro ⟨hlt, hnumber, hfirst⟩
    rcases Nat.lt_succ_iff_lt_or_eq.1 hlt with hlt | heq
    · exact Or.inl ⟨hlt, hnumber, hfirst⟩
    · exact Or.inr ⟨heq, heq ▸ hnumber⟩

theorem again (h : DemotionInv rows k s) (hnk : numberAt rows k = some n) {first : ℕ} (hfirst : (n, first) ∈ s.1) :
    DemotionInv rows (k + 1) (s.1, (s.2.modify first (·.demoted)).modify k (·.demoted)) := by
  obtain ⟨hlt, hnfirst, -⟩ := (h.seen _).1 hfirst
  have hrepeated : ∀ i, RepeatedBelow rows (k + 1) i ↔ RepeatedBelow rows k i ∨ i = first ∨ i = k := by
    intro i
    rw [repeatedBelow_succ]
    constructor
    · rintro (hi | ⟨m, hm, j, hj, hnj, rfl | ⟨hi, hni⟩⟩)
      · exact Or.inl hi
      · exact Or.inr (Or.inr rfl)
      · obtain rfl := Option.some.inj (hnk.symm.trans hm)
        by_cases heq : i = first
        · exact Or.inr (Or.inl heq)
        · exact Or.inl ⟨n, first, ⟨hi, hni⟩, ⟨hlt, hnfirst⟩, Ne.symm heq⟩
    · rintro (hi | rfl | rfl)
      · exact Or.inl hi
      · exact Or.inr ⟨n, hnk, i, hlt, hnfirst, Or.inr ⟨hlt, hnfirst⟩⟩
      · exact Or.inr ⟨n, hnk, first, hlt, hnfirst, Or.inl rfl⟩
  have hget : ∀ i, ((s.2.modify first (·.demoted)).modify k (·.demoted))[i]? =
      if i = first ∨ i = k then s.2[i]?.map (·.demoted) else s.2[i]? := by
    intro i
    rw [List.getElem?_modify, List.getElem?_modify]
    cases s.2[i]? with
    | none => simp
    | some line =>
      by_cases hik : k = i
      · by_cases hif : first = i
        · simp [hik, hif, demoted_demoted]
        · simp [hik, hif]
      · by_cases hif : first = i
        · simp [hik, hif]
        · simp [hik, hif, Ne.symm hik, Ne.symm hif]
  refine ⟨fun p => ?_, fun i hi => ?_, fun i hi => ?_⟩
  · rw [h.seen]
    constructor
    · rintro ⟨hp, hnumber, hleast⟩
      exact ⟨by omega, hnumber, hleast⟩
    · rintro ⟨hp, hnumber, hleast⟩
      refine ⟨?_, hnumber, hleast⟩
      rcases Nat.lt_succ_iff_lt_or_eq.1 hp with hp | hp
      · exact hp
      · rw [hp, hnk] at hnumber
        exact absurd (hnumber ▸ hnfirst) (hleast first (hp ▸ hlt))
  · rw [hget]
    split_ifs with hboth
    · exact h.map_demoted i
    · exact h.demoted i (((hrepeated i).1 hi).resolve_right hboth)
  · rw [hrepeated, not_or] at hi
    rw [hget, if_neg hi.2]
    exact h.kept i hi.1

theorem step (h : DemotionInv rows k s) : DemotionInv rows (k + 1) (demoteAt s k) := by
  unfold demoteAt
  rw [h.number]
  cases hnk : numberAt rows k with
  | none =>
    refine h.fresh (fun j _ n hn => absurd (hnk.symm.trans hn) (by simp)) fun p => ?_
    simp [hnk]
  | some n =>
    cases hfind : s.1.find? (·.1 = n) with
    | some first =>
      have hmem := List.mem_of_find?_eq_some hfind
      have hname : first.1 = n := by simpa using List.find?_some hfind
      subst hname
      simp only [hfind]
      exact h.again hnk hmem
    | none =>
      have hseen : ∀ p, p ∈ s.1 ++ [(n, k)] ↔ p ∈ s.1 ∨ p.2 = k ∧ numberAt rows k = some p.1 := by
        rintro ⟨m, i⟩
        rw [List.mem_append, List.mem_singleton, Prod.mk.injEq, hnk, Option.some.injEq, and_comm, eq_comm (a := m)]
      simp only [hfind]
      refine h.fresh (fun j hj m hm hnj => ?_) hseen
      · obtain rfl := Option.some.inj (hnk.symm.trans hm)
        obtain ⟨first, hfirst⟩ := h.exists_first hj hnj
        have hno := List.find?_eq_none.1 hfind _ hfirst
        simp at hno

theorem run (rows : List ExtractedPurchaseOrderLine) (k : ℕ) :
    DemotionInv rows k ((List.range k).foldl demoteAt ([], rows)) := by
  induction k with
  | zero =>
    have hnone : ∀ i, ¬RepeatedBelow rows 0 i := fun i ⟨_, _, hi, _⟩ => absurd hi.1 (Nat.not_lt_zero i)
    exact ⟨by simp, fun i hi => absurd hi (hnone i), fun i _ => rfl⟩
  | succ k ih =>
    rw [List.range_succ, List.foldl_append]
    exact ih.step

end DemotionInv

/-- Another line has the number of line `i`. -/
def Repeated (rows : List ExtractedPurchaseOrderLine) (i : ℕ) : Prop :=
  ∃ n j, j ≠ i ∧ numberAt rows i = some n ∧ numberAt rows j = some n

theorem lt_of_numberAt {i : ℕ} {n : String} (h : numberAt rows i = some n) : i < rows.length := by
  obtain ⟨line, hline, -⟩ := Option.bind_eq_some_iff.1 h
  exact (List.getElem?_eq_some_iff.1 hline).1

theorem repeatedBelow_length {i : ℕ} : RepeatedBelow rows rows.length i ↔ Repeated rows i := by
  constructor
  · rintro ⟨n, j, ⟨-, hi⟩, ⟨-, hj⟩, hne⟩
    exact ⟨n, j, hne, hi, hj⟩
  · rintro ⟨n, j, hne, hi, hj⟩
    exact ⟨n, j, ⟨lt_of_numberAt hi, hi⟩, ⟨lt_of_numberAt hj, hj⟩, hne⟩

theorem getElem?_demoteDuplicates_of_repeated {i : ℕ} (h : Repeated rows i) :
    (demoteDuplicates rows)[i]? = rows[i]?.map (·.demoted) :=
  (DemotionInv.run rows rows.length).demoted i (repeatedBelow_length.2 h)

theorem getElem?_demoteDuplicates_of_not {i : ℕ} (h : ¬Repeated rows i) : (demoteDuplicates rows)[i]? = rows[i]? :=
  (DemotionInv.run rows rows.length).kept i fun h' => h (repeatedBelow_length.1 h')

end

/-- The lines are the printed lines in their order. A number is taken back, its evidence kept, exactly when another
line has it, and nothing else changes; so no two lines are left with one number. -/
theorem purchaseOrderRows_numbers (document : DocumentText) :
    (∀ (i j : ℕ) (a b : ExtractedPurchaseOrderLine), i ≠ j →
      (purchaseOrderRows E document)[i]? = some a → (purchaseOrderRows E document)[j]? = some b →
      a.lineNumber.status = .extracted → b.lineNumber.status = .extracted → a.lineNumber.value ≠ b.lineNumber.value) ∧
    (purchaseOrderRows E document).length = (printedRows E document).length ∧
    ∀ i line, (printedRows E document)[i]? = some line → ∃ row, (purchaseOrderRows E document)[i]? = some row ∧
      (Repeated (printedRows E document) i → row = line.demoted) ∧
      (¬Repeated (printedRows E document) i → row = line) ∧
      (row.lineNumber.status = .ambiguous ∧ row.lineNumber.value = none ↔ Repeated (printedRows E document) i) := by
  set printed := printedRows E document with hprinted
  have hrow : ∀ i, (purchaseOrderRows E document)[i]? = printed[i]? ∧ ¬Repeated printed i ∨
      (purchaseOrderRows E document)[i]? = printed[i]?.map (·.demoted) ∧ Repeated printed i := by
    intro i
    by_cases hi : Repeated printed i
    · exact Or.inr ⟨getElem?_demoteDuplicates_of_repeated hi, hi⟩
    · exact Or.inl ⟨getElem?_demoteDuplicates_of_not hi, hi⟩
  -- an extracted number was printed on a line without a repetition
  have hextracted : ∀ i a, (purchaseOrderRows E document)[i]? = some a → a.lineNumber.status = .extracted →
      printed[i]? = some a ∧ ¬Repeated printed i := by
    intro i a ha hstatus
    rcases hrow i with ⟨hget, hi⟩ | ⟨hget, -⟩
    · exact ⟨hget.symm.trans ha, hi⟩
    · obtain ⟨line, -, rfl⟩ := Option.map_eq_some_iff.1 (hget.symm.trans ha)
      cases hstatus
  refine ⟨?_, ?_, ?_⟩
  · intro i j a b hne ha hb hstatus_a hstatus_b heq
    obtain ⟨hline_a, hsingle⟩ := hextracted i a ha hstatus_a
    obtain ⟨hline_b, -⟩ := hextracted j b hb hstatus_b
    obtain ⟨n, hn⟩ := Option.isSome_iff_exists.1 (a.lineNumber.extracted_contract hstatus_a).1
    refine hsingle ⟨n, j, hne.symm, ?_, ?_⟩
    · rw [numberAt, hline_a, Option.bind_some, hn]
    · rw [numberAt, hline_b, Option.bind_some, ← heq, hn]
  · refine Nat.le_antisymm (List.getElem?_eq_none_iff.1 ?_) (List.getElem?_eq_none_iff.1 ?_)
    · rcases hrow printed.length with ⟨hget, -⟩ | ⟨hget, -⟩
      · rw [hget, List.getElem?_eq_none le_rfl]
      · rw [hget, List.getElem?_eq_none le_rfl, Option.map_none]
    · rcases hrow (purchaseOrderRows E document).length with ⟨hget, -⟩ | ⟨hget, -⟩
      · rw [← hget, List.getElem?_eq_none le_rfl]
      · exact Option.map_eq_none_iff.1 (hget.symm.trans (List.getElem?_eq_none le_rfl))
  · intro i line hline
    have hstatus : line.lineNumber.status ≠ .ambiguous := printedRows_status document line (List.mem_of_getElem? hline)
    rcases hrow i with ⟨hget, hi⟩ | ⟨hget, hi⟩
    · refine ⟨line, hget.trans hline, fun h => absurd h hi, fun _ => rfl, fun h => absurd h.1 hstatus, fun h => absurd h hi⟩
    · refine ⟨line.demoted, by rw [hget, hline, Option.map_some], fun _ => rfl, fun h => absurd hi h, fun _ => hi,
        fun _ => ⟨rfl, rfl⟩⟩

end InvoiceOps
