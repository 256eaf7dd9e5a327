import InvoiceOps.Extraction.LineItems

/-! Tables with two columns (`extraction/line_coverage_candidate.py`), a description and a total. The parser opens
such a table only where no other is open, so that it finds what the first parser finds and adds to it. -/

namespace InvoiceOps

open Text

structure TwoColumnHeader where
  page : ℕ
  row : VisualRow
  description : ColumnAnchor
  total : ColumnAnchor

inductive CoverageHeader
  | detected (header : DetectedTableHeader)
  | twoColumn (header : TwoColumnHeader)

def CoverageHeader.isTwoColumn : CoverageHeader → Bool
  | .detected _ => false
  | .twoColumn _ => true

variable (E : TableOps)

/-- The floats `1e-6`, `0.02` and `0.03`. -/
def epsilon : ℚ := 4722366482869645 / 4722366482869645213696

def leastColumnGap : ℚ := 5764607523034235 / 288230376151711744

def MAX_WRAP_GAP : ℚ := 1080863910568919 / 36028797018963968

/-- The anchor of a column when no label of the column stands outside it. -/
def uniqueAnchor (row : VisualRow) (column : LineItemColumn) : Option ColumnAnchor :=
  (bestAnchor E row column).bind fun selected =>
    if (anchorStretches row).any fun stretch =>
        let words := slice row.words stretch.1 (stretch.1 + stretch.2)
        decide (normalizeHeaderText E (joinTexts words) ∈ headerAliases column) &&
          words.any fun w => decide (w.bbox.x0 < E.floatSub selected.bbox.x0 epsilon) ||
            decide (E.floatAdd selected.bbox.x1 epsilon < w.bbox.x1)
    then none else some selected

/-- A word that is a separator, or lies in one of the labels. -/
def inLabels (anchors : List ColumnAnchor) (w : WordToken) : Bool :=
  decide (normalizeHeaderText E w.text = "") || anchors.any fun a =>
    decide (a.bbox.x0 ≤ E.floatAdd w.bbox.x0 epsilon) && decide (E.floatSub w.bbox.x1 epsilon ≤ a.bbox.x1)

def detectTwoColumns (row : VisualRow) : Option TwoColumnHeader :=
  if row.words.any fun w => w.text.toList.any E.isDigit then none
  else if (bestAnchor E row .quantity).isSome || (bestAnchor E row .unitPrice).isSome then none
  else
    match uniqueAnchor E row .description, uniqueAnchor E row .lineTotal with
    | some description, some total =>
      if E.floatSub total.bbox.x0 description.bbox.x1 < leastColumnGap then none
      else if row.words.all (inLabels E [description, total]) then some ⟨row.page, row, description, total⟩
      else none
    | _, _ => none

def detectCandidateHeader (row : VisualRow) : Option CoverageHeader :=
  match detectTableHeader E row with
  | some header => some (.detected header)
  | none => (detectTwoColumns E row).map .twoColumn

def candidateColumnRanges : CoverageHeader → List ColumnRange
  | .detected header => inferColumnRanges E header
  | .twoColumn header =>
    let boundary := E.floatMid header.description.centerX header.total.centerX
    [⟨.description, 0, boundary⟩, ⟨.lineTotal, boundary, 1⟩]

def candidateRowIsProbable (row : ParsedTableRow) (ranges : List ColumnRange) : Bool :=
  if ranges.length = 2 ∧ (row.lineTotalWords.countP fun w => (parseMoney w.text).isSome) ≠ 1 then false
  else isProbableLineItem E row

def proseEndings : List String := ["thank you", "please remit", "remit to", "payment terms"]

def candidateIsFooter (row : VisualRow) (ranges : List ColumnRange) : Bool :=
  if isFooter E row then true
  else if ranges.length ≠ 2 then false
  else
    let text := stripBy isSpace (E.lower (rowText row)).toList
    if isIgnored E row || proseEndings.any fun ending => ending.toList.isPrefixOf text then true
    else if text = "total".toList || "total:".toList.isPrefixOf text || "total ".toList.isPrefixOf text then
      let remainder := (text.drop 5).dropWhile fun c => c == ' ' || c == ':'
      decide (remainder = []) || (parseMoney (String.ofList remainder)).isSome
    else false

/-- The distance from a row to an item of its table. -/
def wrapGap (rows : List ParsedTableRow) (index : ℕ) (row : ParsedTableRow) (item : ℕ) : ℚ :=
  if item < index then E.floatSub row.y0 ((rows[item]?.map (·.y1)).getD 0)
  else E.floatSub ((rows[item]?.map (·.y0)).getD 0) row.y1

/-- A row of text that belongs to one item: one of them is near, and no other as near. -/
def wrapsOneItem (rows : List ParsedTableRow) (valid : List ℕ) (index : ℕ) (row : ParsedTableRow) : Bool :=
  let gaps := valid.map (wrapGap E rows index row)
  match gaps.min? with
  | none => false
  | some closest => decide (0 ≤ closest ∧ closest ≤ MAX_WRAP_GAP) &&
      decide ((gaps.countP fun gap => decide (|E.floatSub gap closest| < epsilon)) = 1)

def resolveTwoColumnSection (rows : List ParsedTableRow) (ranges : List ColumnRange) : List InvoiceLine :=
  let valid := (List.range rows.length).filter fun i => rows[i]?.any fun row => candidateRowIsProbable E row ranges
  let filtered := rows.zipIdx.filter fun p =>
    decide (p.2 ∈ valid) || (descriptionOnly p.1 && wrapsOneItem E rows valid p.2 p.1)
  resolveContinuations E (filtered.map Prod.fst)

def flushSection (rows : List ParsedTableRow) : Option (List ColumnRange) → List InvoiceLine
  | none => []
  | some ranges => if ranges.length = 2 then resolveTwoColumnSection E rows ranges else resolveContinuations E rows

/-- The header of a row, where a header with two columns does not interrupt a table with more. -/
def openingHeader (ranges : Option (List ColumnRange)) (row : VisualRow) : Option CoverageHeader :=
  match detectCandidateHeader E row with
  | some (.twoColumn header) => if ranges.any (3 ≤ ·.length) then none else some (.twoColumn header)
  | header => header

/-- The loop over the rows of a page: the ranges of the open table, and its rows so far. -/
def scanCandidateRows : Option (List ColumnRange) → List ParsedTableRow → List VisualRow → List InvoiceLine
  | ranges, rows, [] => flushSection E rows ranges
  | ranges, rows, row :: rest =>
    match openingHeader E ranges row with
    | some header => flushSection E rows ranges ++ scanCandidateRows (some (candidateColumnRanges E header)) [] rest
    | none =>
      match ranges with
      | none => scanCandidateRows none rows rest
      | some r =>
        if candidateIsFooter E row r then flushSection E rows (some r) ++ scanCandidateRows none [] rest
        else if isIgnored E row then scanCandidateRows (some r) rows rest
        else scanCandidateRows (some r) (rows ++ [parseTableRow E row r]) rest

def extractCandidateLineItems (document : DocumentText) : List InvoiceLine :=
  let rows := visualRows E defaultToleranceFactor document
  (pageNumbers rows).flatMap fun page => scanCandidateRows E none [] (rows.filter (·.page = page))

abbrev CoverageTable := CoverageHeader × List VisualRow

def candidateScanner : Scanner VisualRow CoverageHeader where
  opens c row := openingHeader E (c.map (candidateColumnRanges E)) row
  closes header row := candidateIsFooter E row (candidateColumnRanges E header)
  skips := isIgnored E

def coverageRows (table : CoverageTable) : List ParsedTableRow :=
  table.2.map fun row => parseTableRow E row (candidateColumnRanges E table.1)

/-- The items of a table. -/
def candidateLines (table : CoverageTable) : List InvoiceLine :=
  flushSection E (coverageRows E table) (some (candidateColumnRanges E table.1))

def candidateTables (document : DocumentText) : List CoverageTable :=
  let rows := visualRows E defaultToleranceFactor document
  (pageNumbers rows).flatMap fun page => (candidateScanner E).sections none (rows.filter (·.page = page))

section
variable {E}

theorem candidateScanner_opens (c : Option CoverageHeader) (row : VisualRow) :
    (candidateScanner E).opens c row = openingHeader E (c.map (candidateColumnRanges E)) row := by
  simp only [candidateScanner]

theorem candidateScanner_closes (header : CoverageHeader) (row : VisualRow) :
    (candidateScanner E).closes header row = candidateIsFooter E row (candidateColumnRanges E header) := by
  simp only [candidateScanner]

theorem candidateScanner_skips (row : VisualRow) : (candidateScanner E).skips row = isIgnored E row := by
  simp only [candidateScanner]

theorem scanCandidateRows_eq (current : Option CoverageTable) (rows : List VisualRow) :
    scanCandidateRows E (current.map fun t => candidateColumnRanges E t.1) (current.elim [] (coverageRows E)) rows =
      ((candidateScanner E).sections current rows).flatMap (candidateLines E) := by
  induction rows generalizing current with
  | nil => cases current <;> simp [scanCandidateRows, flushSection, candidateLines]
  | cons row rows ih =>
    have hranges : (current.map Prod.fst).map (candidateColumnRanges E) =
        current.map fun t => candidateColumnRanges E t.1 := by
      rw [Option.map_map]
      rfl
    cases hheader : openingHeader E (current.map fun t => candidateColumnRanges E t.1) row with
    | some header =>
      have hrest := ih (some (header, []))
      have hopens : (candidateScanner E).opens (current.map Prod.fst) row = some header := by
        rw [candidateScanner_opens, hranges, hheader]
      rw [(candidateScanner E).sections_opens hopens, List.flatMap_append, ← hrest]
      cases current with
      | none =>
        rw [Option.map_none] at hheader
        simp [scanCandidateRows, hheader, flushSection, coverageRows]
      | some table =>
        rw [Option.map_some] at hheader
        simp [scanCandidateRows, hheader, candidateLines, coverageRows]
    | none =>
      cases current with
      | none =>
        have hopens : (candidateScanner E).opens none row = none := by
          rw [candidateScanner_opens]
          exact hheader
        rw [Option.map_none] at hheader
        rw [(candidateScanner E).sections_none hopens, ← ih none]
        simp [scanCandidateRows, hheader]
      | some table =>
        obtain ⟨header, kept⟩ := table
        have hopens : (candidateScanner E).opens (some header) row = none := by
          rw [candidateScanner_opens]
          exact hheader
        rw [Option.map_some] at hheader
        rw [(candidateScanner E).sections_some hopens, candidateScanner_closes, candidateScanner_skips]
        simp only [Option.map_some, Option.elim_some, scanCandidateRows, hheader]
        split_ifs
        · rw [List.flatMap_cons, ← ih none]
          rfl
        · rw [← ih (some (header, kept))]
          rfl
        · rw [← ih (some (header, kept ++ [row]))]
          simp [coverageRows]

theorem extractCandidateLineItems_eq (document : DocumentText) :
    extractCandidateLineItems E document = (candidateTables E document).flatMap (candidateLines E) := by
  unfold extractCandidateLineItems candidateTables
  simp only [List.flatMap_assoc]
  exact List.flatMap_congr fun page _ => scanCandidateRows_eq none _

theorem three_le_ranges (header : DetectedTableHeader) : 3 ≤ (candidateColumnRanges E (.detected header)).length := by
  rw [candidateColumnRanges, length_inferColumnRanges]
  exact header.three

theorem openingHeader_of_detected {row : VisualRow} {header : DetectedTableHeader} (ranges : Option (List ColumnRange))
    (h : detectTableHeader E row = some header) : openingHeader E ranges row = some (.detected header) := by
  simp only [openingHeader, detectCandidateHeader, h]

theorem openingHeader_of_none {row : VisualRow} {ranges : Option (List ColumnRange)}
    (h : detectTableHeader E row = none) : openingHeader E ranges row =
      if ranges.any (3 ≤ ·.length) then none else (detectTwoColumns E row).map .twoColumn := by
  simp only [openingHeader, detectCandidateHeader, h]
  cases detectTwoColumns E row with
  | none => simp
  | some header => simp

/-- Whenever the first parser has a table open, the second has it open with the same rows. -/
theorem candidateScanner_extends :
    (tableScanner E).Extends (candidateScanner E) CoverageHeader.detected CoverageHeader.isTwoColumn where
  lift_added _ := rfl
  opens_lift c c' row header h := by
    rw [tableScanner_opens] at h
    rw [candidateScanner_opens, openingHeader_of_detected _ h]
  opens_none c header row h := by
    rw [tableScanner_opens] at h
    rw [candidateScanner_opens, openingHeader_of_none h]
    exact if_pos (decide_eq_true (three_le_ranges header))
  opens_added c c' row t h h' := by
    rw [tableScanner_opens] at h
    rw [candidateScanner_opens, openingHeader_of_none h] at h'
    split_ifs at h'
    obtain ⟨header, -, rfl⟩ := Option.map_eq_some_iff.1 h'
    rfl
  closes_lift header row := by
    have hthree := three_le_ranges (E := E) header
    have htwo : (candidateColumnRanges E (.detected header)).length ≠ 2 := by omega
    rw [candidateScanner_closes, tableScanner_closes, candidateIsFooter, if_pos htwo]
    cases isFooter E row <;> rfl
  skips_eq row := by rw [candidateScanner_skips, tableScanner_skips]

theorem candidateLines_detected (table : Table) :
    candidateLines E (.detected table.1, table.2) = resolveContinuations E (parsedRows E table) := by
  have hthree := three_le_ranges (E := E) table.1
  have htwo : (candidateColumnRanges E (.detected table.1)).length ≠ 2 := by omega
  rw [candidateLines, flushSection, if_neg htwo]
  rfl

/-- The tables of the first parser are those of the second that have more than two columns. -/
theorem tables_eq (document : DocumentText) :
    (tables E document).map (fun t => (CoverageHeader.detected t.1, t.2)) =
      (candidateTables E document).filter fun t => !t.1.isTwoColumn := by
  unfold tables candidateTables
  simp only [List.map_flatMap, List.filter_flatMap]
  exact List.flatMap_congr fun page _ => candidateScanner_extends.sections _ (by simp [Scanner.Together])

theorem header_of_candidateTables {document : DocumentText} {table : CoverageTable}
    (h : table ∈ candidateTables E document) :
    ∃ row ∈ visualRows E defaultToleranceFactor document, detectCandidateHeader E row = some table.1 := by
  unfold candidateTables at h
  obtain ⟨page, -, hsection⟩ := List.mem_flatMap.1 h
  refine (candidateScanner E).forall_sections (P := fun header => ∃ row ∈ visualRows E defaultToleranceFactor document,
    detectCandidateHeader E row = some header) ?_ (by simp) table hsection
  intro c row header hrow hopens
  refine ⟨row, List.mem_of_mem_filter hrow, ?_⟩
  rw [candidateScanner_opens, openingHeader] at hopens
  split at hopens
  · rename_i hdetected
    split_ifs at hopens
    rw [hdetected, hopens]
  · exact hopens

end

/-- The parser for two columns only adds lines: the items of the first parser are those of its tables with more
columns, in their order, and every other item comes from a table that a header with two columns opened. Where no
row is such a header, nothing is added. -/
theorem extractCandidateLineItems_adds (document : DocumentText) :
    (extractLineItems E document).Sublist (extractCandidateLineItems E document) ∧
    extractCandidateLineItems E document = (candidateTables E document).flatMap (candidateLines E) ∧
    extractLineItems E document =
      ((candidateTables E document).filter fun t => !t.1.isTwoColumn).flatMap (candidateLines E) ∧
    (∀ t ∈ candidateTables E document, ∃ row ∈ visualRows E defaultToleranceFactor document,
      detectCandidateHeader E row = some t.1) ∧
    ((∀ row ∈ visualRows E defaultToleranceFactor document, ∀ header,
        detectCandidateHeader E row ≠ some (.twoColumn header)) →
      extractCandidateLineItems E document = extractLineItems E document) := by
  have hcandidate := extractCandidateLineItems_eq (E := E) document
  have hfirst : extractLineItems E document =
      ((candidateTables E document).filter fun t => !t.1.isTwoColumn).flatMap (candidateLines E) := by
    rw [extractLineItems_eq, ← tables_eq, List.flatMap_map]
    exact List.flatMap_congr fun table _ => (candidateLines_detected table).symm
  refine ⟨?_, hcandidate, hfirst, fun t ht => header_of_candidateTables ht, fun hnone => ?_⟩
  · rw [hcandidate, hfirst]
    exact List.filter_sublist.flatMap _
  · rw [hcandidate, hfirst]
    congr 1
    refine (List.filter_eq_self.2 fun t ht => ?_).symm
    obtain ⟨row, hrow, hheader⟩ := header_of_candidateTables ht
    obtain ⟨header, kept⟩ := t
    cases header with
    | detected header => rfl
    | twoColumn header => exact absurd hheader (hnone row hrow header)

end InvoiceOps
