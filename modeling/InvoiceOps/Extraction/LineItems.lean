import InvoiceOps.Extraction.TableLayout

/-! The line items of an invoice (`extraction/line_item_rules.py`). Below the header of a table every row is cut
into cells, and rows with a description alone continue the item before or after them. A word comes into one cell
of one item at most. -/

namespace InvoiceOps

open Text

structure ParsedTableRow where
  page : ℕ
  y0 : ℚ
  y1 : ℚ
  descriptionWords : List WordToken
  quantityWords : List WordToken
  unitPriceWords : List WordToken
  lineTotalWords : List WordToken
  descriptionContinued : Bool
deriving DecidableEq

/-- The words of all cells. -/
def ParsedTableRow.words (row : ParsedTableRow) : List WordToken :=
  row.descriptionWords ++ (row.quantityWords ++ (row.unitPriceWords ++ row.lineTotalWords))

/-- A small letter of a pattern without regard to case; the Kelvin sign is a case of k. -/
def eqLetter (p c : Char) : Bool := eqIgnoringCase p.toUpper c || (p == 'k' && c == '\u212a')

def letters (w : String) : Regex.Pattern := .word eqLetter w

section
open Regex.Pattern

/-- `\s*` and `\s+` -/
def spaces : Regex.Pattern := many isSpace

def blanks : Regex.Pattern := plus isSpace

def footerLabels : Regex.Pattern :=
  oneOf [seq (letters "sub") (seq spaces (letters "total")), letters "tax", letters "gst", letters "cgst", letters "sgst",
    letters "igst", letters "discount", letters "shipping", letters "round off", letters "amount due",
    letters "grand total", letters "invoice total", letters "net payable"]

variable (E : TableOps)

def ignoredRowPattern : Regex.Pattern :=
  let digits := plus fun c => (E.digit c).isSome
  seq spaces (seq (oneOf [
    seq (letters "page") (seq blanks (seq digits (opt (seq blanks (seq (letters "of") (seq blanks digits)))))),
    seq (letters "terms") (opt (seq blanks (seq (letters "and") (seq blanks (letters "conditions"))))),
    seq (letters "bank") (opt (seq blanks (letters "details"))),
    letters "signature", letters "authorized signatory"]) boundary)

/-- `\b(?:AED|…|USD|RS\.?)\b` -/
def currencyWord : Regex.Pattern :=
  seq boundary (seq (oneOf (["AED", "AUD", "CAD", "CHF", "EUR", "GBP", "INR", "JPY", "SGD", "USD"].map (word eqIgnoringCase) ++
    [seq (word eqIgnoringCase "RS") (opt (one (· == '.')))])) boundary)

def currencyMarker : Regex.Pattern := alt (one (· ∈ ['₹', '€', '£', '$'])) currencyWord

end

variable (E : TableOps)

def wordsText (words : List WordToken) : String := normalizeWhitespace (joinTexts words)

def hasCurrencyMarker (text : String) : Bool := Regex.found E.isWord currencyMarker text.toList

def parseQuantity (words : List WordToken) : Option Decimal :=
  let text := wordsText words
  if text = "" ∨ hasCurrencyMarker E text = true then none else parseMoney text

def parseMoneyCell : List WordToken → Option Decimal
  | [] => none
  | word :: words => parseMoney (wordsText (word :: words))

/-- The words of a row that lie in a column. -/
def assigned (row : VisualRow) (ranges : List ColumnRange) (column : LineItemColumn) : List WordToken :=
  row.words.filter fun w => columnForWord E w ranges = some column

/-- A row of text alone: no digit and no currency in it. -/
def isProse (row : VisualRow) : Bool :=
  row.words.all fun w => !(w.text.toList.any E.isDigit) && !hasCurrencyMarker E w.text

def parseTableRow (row : VisualRow) (ranges : List ColumnRange) : ParsedTableRow :=
  if assigned E row ranges .description ≠ [] ∧ isProse E row = true then
    ⟨row.page, row.y0, row.y1, row.words, [], [], [], false⟩
  else
    ⟨row.page, row.y0, row.y1, assigned E row ranges .description, assigned E row ranges .quantity,
      assigned E row ranges .unitPrice, assigned E row ranges .lineTotal, false⟩

def isProbableLineItem (row : ParsedTableRow) : Bool :=
  let hasDescription := decide (wordsText row.descriptionWords ≠ "")
  let hasQuantity := (parseQuantity E row.quantityWords).isSome
  let hasUnitPrice := (parseMoneyCell row.unitPriceWords).isSome
  let hasTotal := (parseMoneyCell row.lineTotalWords).isSome
  hasDescription && (hasTotal || (hasQuantity && hasUnitPrice))

def descriptionOnly (row : ParsedTableRow) : Bool :=
  decide (row.descriptionWords ≠ []) &&
    !(decide (row.quantityWords ≠ []) || decide (row.unitPriceWords ≠ []) || decide (row.lineTotalWords ≠ []))

def missingDecimal : ExtractedField Decimal := ⟨none, .missing, [], none, by simp, by simp⟩

/-- A value has words to stand for it. -/
def decimalField (words : List WordToken) (value : Option Decimal) (ruleId : String)
    (h : value.isSome = true → words ≠ []) : ExtractedField Decimal :=
  match value, h with
  | none, _ => missingDecimal
  | some v, h => ⟨some v, .extracted, evidenceFromWords E.toGroundingOps words, some ruleId,
      fun _ => ⟨rfl, evidenceFromWords_ne_nil (h rfl)⟩, by simp⟩

theorem parseQuantity_words {words : List WordToken} (h : (parseQuantity E words).isSome = true) : words ≠ [] := by
  rintro rfl
  have hempty : wordsText [] = "" := by decide
  simp [parseQuantity, hempty] at h

theorem parseMoneyCell_words {words : List WordToken} (h : (parseMoneyCell words).isSome = true) : words ≠ [] := by
  rintro rfl
  simp [parseMoneyCell] at h

/-- A row that becomes an item: it has words of a description. -/
structure ItemRow where
  row : ParsedTableRow
  described : row.descriptionWords ≠ []

def toInvoiceLine (item : ItemRow) : InvoiceLine where
  description := ⟨some (wordsText item.row.descriptionWords), .extracted,
    evidenceFromWords E.toGroundingOps item.row.descriptionWords,
    some (if item.row.descriptionContinued then "line_item.description.continuation.v1"
      else "line_item.description.column.v1"),
    fun _ => ⟨rfl, evidenceFromWords_ne_nil item.described⟩, by simp⟩
  quantity := decimalField E item.row.quantityWords (parseQuantity E item.row.quantityWords)
    "line_item.quantity.column.v1" (parseQuantity_words E)
  unitPrice := decimalField E item.row.unitPriceWords (parseMoneyCell item.row.unitPriceWords)
    "line_item.unit_price.column.v1" parseMoneyCell_words
  lineTotal := decimalField E item.row.lineTotalWords (parseMoneyCell item.row.lineTotalWords)
    "line_item.line_total.column.v1" parseMoneyCell_words

def rowText (row : VisualRow) : String := wordsText row.words

/-- The label of a footer and what follows it, when the row starts with one. -/
def footerMatch (text : List Char) : Option (List Char × List Char) :=
  (Regex.matchAt E.isWord spaces (none, text)).bind fun start =>
    (Regex.matchAt E.isWord (.seq footerLabels .boundary) start).map fun stop =>
      (start.2.take (start.2.length - stop.2.length), stop.2)

def closingLabels : List String := ["subtotal", "sub total", "amount due", "grand total", "invoice total", "net payable"]

def isFooter (row : VisualRow) : Bool :=
  match footerMatch E (rowText row).toList with
  | none => false
  | some (group, remainder) =>
    let label := E.lower (normalizeWhitespace (String.ofList group))
    if label ∈ closingLabels then true
    else (Regex.removeAll E.isWord currencyWord remainder).all fun c => !c.isAlpha

def isIgnored (row : VisualRow) : Bool :=
  (Regex.matchAt E.isWord (ignoredRowPattern E) (none, (rowText row).toList)).isSome

/-- The rows that are items, by their index. -/
def validIndices (rows : List ParsedTableRow) : List ℕ :=
  (List.range rows.length).filter fun i => rows[i]?.any (isProbableLineItem E)

/-- The item a continuation belongs to, and whether it stands before the item's own description. -/
def continuationTarget (rows : List ParsedTableRow) (index : ℕ) (continuation : ParsedTableRow) : Option (ℕ × Bool) :=
  if descriptionOnly continuation then
    match ((validIndices E rows).filter (· < index)).max?, ((validIndices E rows).filter (index < ·)).min? with
    | none, none => none
    | none, some following => some (following, true)
    | some previous, none => some (previous, false)
    | some previous, some following =>
      let previousGap := E.floatSub continuation.y0 ((rows[previous]?.map (·.y1)).getD 0)
      let followingGap := E.floatSub ((rows[following]?.map (·.y0)).getD 0) continuation.y1
      if followingGap < previousGap then some (following, true) else some (previous, false)
  else none

/-- The words that continuations put before or after the description of an item. -/
def continued (rows : List ParsedTableRow) (index : ℕ) (prepend : Bool) : List WordToken :=
  (rows.zipIdx.filter fun p => continuationTarget E rows p.2 p.1 = some (index, prepend)).flatMap (·.1.descriptionWords)

/-- An item with its continuations. -/
def continueRow (rows : List ParsedTableRow) (index : ℕ) (row : ParsedTableRow) : ParsedTableRow :=
  if rows.zipIdx.any fun p => (continuationTarget E rows p.2 p.1).any (·.1 = index) then
    { row with
      descriptionWords := continued E rows index true ++ row.descriptionWords ++ continued E rows index false
      descriptionContinued := true }
  else row

theorem described_of_probable {row : ParsedTableRow} (h : isProbableLineItem E row = true) : row.descriptionWords ≠ [] := by
  intro hnil
  have hempty : wordsText [] = "" := by decide
  simp [isProbableLineItem, hnil, hempty] at h

theorem described_continueRow {rows : List ParsedTableRow} {index : ℕ} {row : ParsedTableRow}
    (h : isProbableLineItem E row = true) : (continueRow E rows index row).descriptionWords ≠ [] := by
  unfold continueRow
  have hdescribed := described_of_probable E h
  split_ifs
  · simp [hdescribed]
  · exact hdescribed

def itemRow (rows : List ParsedTableRow) (p : ParsedTableRow × ℕ) : Option ItemRow :=
  if h : isProbableLineItem E p.1 = true then some ⟨continueRow E rows p.2 p.1, described_continueRow E h⟩ else none

def itemRows (rows : List ParsedTableRow) : List ItemRow := rows.zipIdx.filterMap (itemRow E rows)

def resolveContinuations (rows : List ParsedTableRow) : List InvoiceLine := (itemRows E rows).map (toInvoiceLine E)

/-- The loop over the rows of a page: the ranges of the open table, and its rows so far. -/
def scanRows : Option (List ColumnRange) → List ParsedTableRow → List VisualRow → List InvoiceLine
  | none, _, [] => []
  | some _, rows, [] => resolveContinuations E rows
  | ranges, rows, row :: rest =>
    match detectTableHeader E row with
    | some header =>
      (if ranges.isSome then resolveContinuations E rows else []) ++ scanRows (some (inferColumnRanges E header)) [] rest
    | none =>
      match ranges with
      | none => scanRows none rows rest
      | some r =>
        if isFooter E row then resolveContinuations E rows ++ scanRows none [] rest
        else if isIgnored E row then scanRows (some r) rows rest
        else scanRows (some r) (rows ++ [parseTableRow E row r]) rest

def pageNumbers (rows : List VisualRow) : List ℕ := (rows.map (·.page)).dedup.insertionSort (· ≤ ·)

def extractLineItems (document : DocumentText) : List InvoiceLine :=
  let rows := visualRows E defaultToleranceFactor document
  (pageNumbers rows).flatMap fun page => scanRows E none [] (rows.filter (·.page = page))

section
variable {E : TableOps}

theorem nodup_columnKeys : (none :: lineItemColumns.map some).Nodup := by decide

theorem assigned_perm (row : VisualRow) (ranges : List ColumnRange) :
    ((row.words.filter fun w => columnForWord E w ranges = none) ++
      lineItemColumns.flatMap (assigned E row ranges)).Perm row.words := by
  have hkeys : ∀ w ∈ row.words, columnForWord E w ranges ∈ none :: lineItemColumns.map some := by
    intro w _
    have hall : ∀ c : Option LineItemColumn, c ∈ none :: lineItemColumns.map some := by
      rintro (_ | _ | _ | _ | _) <;> decide
    exact hall _
  have hperm := Lists.flatMap_filter_key_perm nodup_columnKeys hkeys
  rw [List.flatMap_cons, List.flatMap_map] at hperm
  exact hperm

/-- No word of a row comes into two cells. -/
theorem words_parseTableRow (row : VisualRow) (ranges : List ColumnRange) :
    (parseTableRow E row ranges).words.Subperm row.words := by
  unfold parseTableRow
  split_ifs
  · simp [ParsedTableRow.words, List.Subperm.refl]
  · have hcells : (lineItemColumns.flatMap (assigned E row ranges)) = assigned E row ranges .description ++
        (assigned E row ranges .quantity ++ (assigned E row ranges .unitPrice ++ assigned E row ranges .lineTotal)) := by
      simp [lineItemColumns]
    have hperm := assigned_perm (E := E) row ranges
    rw [hcells] at hperm
    exact (List.sublist_append_right _ _).subperm.trans hperm.subperm

theorem filter_or_perm {α : Type} {p q : α → Bool} {xs : List α} (h : ∀ x ∈ xs, p x = true → q x = false) :
    (xs.filter fun x => p x || q x).Perm (xs.filter p ++ xs.filter q) := by
  refine (List.filter_append_perm p _).symm.trans ?_
  rw [List.filter_filter, List.filter_filter]
  refine List.Perm.append (List.Perm.of_eq ?_) (List.Perm.of_eq ?_)
  · exact List.filter_congr fun x _ => by cases p x <;> simp
  · refine List.filter_congr fun x hx => ?_
    cases hp : p x with
    | false => simp
    | true => simp [h x hx hp]

theorem filter_zipIdx {α : Type} {xs : List α} {p : α × ℕ} (hp : p ∈ xs.zipIdx) :
    (xs.zipIdx.filter fun q => q.2 = p.2) = [p] := by
  refine @Lists.filter_key _ _ _ Prod.snd _ _ ?_ hp
  rw [List.zipIdx_map_snd]
  exact List.nodup_range'

theorem not_probable_of_descriptionOnly {row : ParsedTableRow} (h : descriptionOnly row = true) :
    isProbableLineItem E row = false := by
  have hempty : parseQuantity E [] = none := by
    have htext : wordsText [] = "" := by decide
    simp [parseQuantity, htext]
  unfold descriptionOnly at h
  simp only [ne_eq, Bool.and_eq_true, decide_eq_true_eq, Bool.not_eq_true', Bool.or_eq_false_iff, decide_eq_false_iff_not,
    not_not] at h
  obtain ⟨-, ⟨hquantity, hprice⟩, htotal⟩ := h
  simp [isProbableLineItem, hquantity, hprice, htotal, parseMoneyCell]

theorem words_of_descriptionOnly {row : ParsedTableRow} (h : descriptionOnly row = true) :
    row.words = row.descriptionWords := by
  unfold descriptionOnly at h
  simp only [ne_eq, Bool.and_eq_true, decide_eq_true_eq, Bool.not_eq_true', Bool.or_eq_false_iff, decide_eq_false_iff_not,
    not_not] at h
  obtain ⟨-, ⟨hquantity, hprice⟩, htotal⟩ := h
  simp [ParsedTableRow.words, hquantity, hprice, htotal]

variable {rows : List ParsedTableRow}

theorem mem_validIndices {i : ℕ} : i ∈ validIndices E rows ↔ ∃ row, rows[i]? = some row ∧ isProbableLineItem E row = true := by
  unfold validIndices
  rw [List.mem_filter, List.mem_range]
  constructor
  · rintro ⟨-, h⟩
    obtain ⟨row, hrow, hprobable⟩ := (Option.any_eq_true _ _).1 h
    exact ⟨row, hrow, hprobable⟩
  · rintro ⟨row, hrow, hprobable⟩
    exact ⟨(List.getElem?_eq_some_iff.1 hrow).1, by rw [hrow]; exact hprobable⟩

theorem continuationTarget_spec {index : ℕ} {row : ParsedTableRow} {target : ℕ × Bool}
    (h : continuationTarget E rows index row = some target) :
    descriptionOnly row = true ∧ target.1 ∈ validIndices E rows := by
  have hprevious : ∀ {i}, ((validIndices E rows).filter (· < index)).max? = some i → i ∈ validIndices E rows :=
    fun hi => List.mem_of_mem_filter (List.max?_mem hi)
  have hfollowing : ∀ {i}, ((validIndices E rows).filter (index < ·)).min? = some i → i ∈ validIndices E rows :=
    fun hi => List.mem_of_mem_filter (List.min?_mem hi)
  unfold continuationTarget at h
  split_ifs at h with honly
  refine ⟨honly, ?_⟩
  split at h
  · simp at h
  · rename_i hf
    obtain rfl := Option.some.inj h
    exact hfollowing hf
  · rename_i hp _
    obtain rfl := Option.some.inj h
    exact hprevious hp
  · rename_i hp hf
    simp only at h
    split at h
    · obtain rfl := Option.some.inj h
      exact hfollowing hf
    · obtain rfl := Option.some.inj h
      exact hprevious hp

/-- The item a row of a table goes to: its own, or the one it continues. -/
def home (E : TableOps) (rows : List ParsedTableRow) (p : ParsedTableRow × ℕ) : Option ℕ :=
  if isProbableLineItem E p.1 = true then some p.2 else (continuationTarget E rows p.2 p.1).map Prod.fst

/-- The rows that continue an item before (`true`) or after its own description. -/
def continuations (E : TableOps) (rows : List ParsedTableRow) (index : ℕ) (prepend : Bool) : List (ParsedTableRow × ℕ) :=
  rows.zipIdx.filter fun p => continuationTarget E rows p.2 p.1 = some (index, prepend)

theorem flatMap_continuations (index : ℕ) (prepend : Bool) :
    (continuations E rows index prepend).flatMap (fun p => p.1.words) = continued E rows index prepend := by
  refine List.flatMap_congr fun p hp => ?_
  obtain ⟨-, htarget⟩ := List.mem_filter.1 hp
  exact words_of_descriptionOnly (continuationTarget_spec (of_decide_eq_true htarget)).1

theorem words_continueRow_perm (index : ℕ) (row : ParsedTableRow) :
    (continueRow E rows index row).words.Perm
      (row.words ++ (continued E rows index true ++ continued E rows index false)) := by
  unfold continueRow
  split_ifs with hany
  · simp only [ParsedTableRow.words, List.append_assoc]
    have hmove : ∀ a b c d : List WordToken, (a ++ (b ++ (c ++ d))).Perm (b ++ (d ++ (a ++ c))) := by
      intro a b c d
      have hfirst : (a ++ (b ++ (c ++ d))).Perm (b ++ (a ++ (c ++ d))) := by
        rw [← List.append_assoc, ← List.append_assoc b]
        exact List.perm_append_comm.append_right _
      refine hfirst.trans (List.Perm.append_left b ?_)
      rw [← List.append_assoc]
      exact List.perm_append_comm
    have hcells := hmove (continued E rows index true) row.descriptionWords (continued E rows index false)
      (row.quantityWords ++ (row.unitPriceWords ++ row.lineTotalWords))
    simpa only [List.append_assoc] using hcells
  · have hnone : ∀ prepend, continued E rows index prepend = [] := by
      intro prepend
      rw [← flatMap_continuations, List.flatMap_eq_nil_iff]
      intro p hp
      obtain ⟨hmem, htarget⟩ := List.mem_filter.1 hp
      refine absurd (List.any_eq_true.2 ⟨p, hmem, ?_⟩) hany
      rw [of_decide_eq_true htarget]
      simp
    simp [hnone]

/-- The words of an item are those of the rows that go to it. -/
theorem words_continueRow {p : ParsedTableRow × ℕ} (hp : p ∈ rows.zipIdx) (hprobable : isProbableLineItem E p.1 = true) :
    (continueRow E rows p.2 p.1).words.Perm
      ((rows.zipIdx.filter fun q => home E rows q = some p.2).flatMap fun q => q.1.words) := by
  have hsame : ∀ q ∈ rows.zipIdx, q.2 = p.2 → q = p := by
    intro q hq heq
    have hmem : q ∈ rows.zipIdx.filter fun q => q.2 = p.2 := List.mem_filter.2 ⟨hq, decide_eq_true heq⟩
    rw [filter_zipIdx hp] at hmem
    exact List.mem_singleton.1 hmem
  have hnotProbable : ∀ {q : ParsedTableRow × ℕ} {target}, continuationTarget E rows q.2 q.1 = some target →
      isProbableLineItem E q.1 = false :=
    fun htarget => not_probable_of_descriptionOnly (continuationTarget_spec htarget).1
  have hhome : (rows.zipIdx.filter fun q => home E rows q = some p.2) = rows.zipIdx.filter fun q =>
      decide (q.2 = p.2) || (decide (continuationTarget E rows q.2 q.1 = some (p.2, true)) ||
        decide (continuationTarget E rows q.2 q.1 = some (p.2, false))) := by
    refine List.filter_congr fun q hq => ?_
    rw [Bool.eq_iff_iff]
    simp only [Bool.or_eq_true, decide_eq_true_eq]
    constructor
    · intro h
      unfold home at h
      split_ifs at h with hq'
      · exact Or.inl (Option.some.inj h)
      · obtain ⟨⟨i, b⟩, htarget, rfl⟩ := Option.map_eq_some_iff.1 h
        cases b
        · exact Or.inr (Or.inr htarget)
        · exact Or.inr (Or.inl htarget)
    · rintro (heq | htarget | htarget)
      · rw [hsame q hq heq, home, if_pos hprobable]
      · simp [home, hnotProbable htarget, htarget]
      · simp [home, hnotProbable htarget, htarget]
  have hown : ∀ q ∈ rows.zipIdx, decide (q.2 = p.2) = true →
      (decide (continuationTarget E rows q.2 q.1 = some (p.2, true)) ||
        decide (continuationTarget E rows q.2 q.1 = some (p.2, false))) = false := by
    intro q hq heq
    rw [hsame q hq (of_decide_eq_true heq)]
    have hnone : ∀ target, continuationTarget E rows p.2 p.1 ≠ some target := by
      intro target htarget
      rw [hnotProbable htarget] at hprobable
      cases hprobable
    simp [hnone]
  have hsides : ∀ q ∈ rows.zipIdx, decide (continuationTarget E rows q.2 q.1 = some (p.2, true)) = true →
      decide (continuationTarget E rows q.2 q.1 = some (p.2, false)) = false := by
    intro q _ htrue
    rw [of_decide_eq_true htrue]
    simp
  have hsplit := (filter_or_perm hown).trans ((filter_or_perm hsides).append_left _)
  rw [← hhome, filter_zipIdx hp] at hsplit
  refine (words_continueRow_perm p.2 p.1).trans ?_
  refine List.Perm.trans (List.Perm.of_eq ?_) (hsplit.flatMap_right _).symm
  rw [List.flatMap_append, List.flatMap_append, List.flatMap_singleton, ← flatMap_continuations, ← flatMap_continuations]
  rfl

theorem flatMap_itemRow (rows : List ParsedTableRow) (ps : List (ParsedTableRow × ℕ)) :
    (ps.filterMap (itemRow E rows)).flatMap (·.row.words) =
      (ps.filter fun p => isProbableLineItem E p.1).flatMap fun p => (continueRow E rows p.2 p.1).words := by
  induction ps with
  | nil => rfl
  | cons p ps ih =>
    by_cases hp : isProbableLineItem E p.1 = true
    · rw [List.filter_cons, if_pos hp, List.filterMap_cons_some (by rw [itemRow, dif_pos hp]), List.flatMap_cons,
        List.flatMap_cons, ih]
    · rw [List.filter_cons, if_neg hp, List.filterMap_cons_none (by rw [itemRow, dif_neg hp]), ih]

/-- No word of a table comes into two items. -/
theorem words_itemRows (rows : List ParsedTableRow) :
    ((itemRows E rows).flatMap (·.row.words)).Subperm (rows.flatMap (·.words)) := by
  have hitems := flatMap_itemRow (E := E) rows rows.zipIdx
  have hgrouped : ((rows.zipIdx.filter fun p => isProbableLineItem E p.1).flatMap fun p =>
      (continueRow E rows p.2 p.1).words).Perm
        (((rows.zipIdx.filter fun p => isProbableLineItem E p.1).flatMap fun p =>
          rows.zipIdx.filter fun q => home E rows q = some p.2).flatMap fun q => q.1.words) := by
    rw [List.flatMap_assoc]
    refine List.Perm.flatMap_left _ fun p hp => ?_
    obtain ⟨hmem, hprobable⟩ := List.mem_filter.1 hp
    exact words_continueRow hmem hprobable
  have hnodup : (none :: (rows.zipIdx.filter fun p => isProbableLineItem E p.1).map fun p => some p.2).Nodup := by
    rw [List.nodup_cons]
    refine ⟨by simp, ?_⟩
    rw [← Function.comp_def some, ← List.map_map]
    refine List.Nodup.map (Option.some_injective _) ?_
    refine List.Nodup.sublist (List.filter_sublist.map _) ?_
    rw [List.zipIdx_map_snd]
    exact List.nodup_range'
  have hkeys : ∀ q ∈ rows.zipIdx,
      home E rows q ∈ none :: (rows.zipIdx.filter fun p => isProbableLineItem E p.1).map fun p => some p.2 := by
    intro q hq
    cases hhome : home E rows q with
    | none => exact List.mem_cons_self ..
    | some i =>
      refine List.mem_cons_of_mem _ (List.mem_map.2 ?_)
      unfold home at hhome
      split_ifs at hhome with hprobable
      · exact ⟨q, List.mem_filter.2 ⟨hq, hprobable⟩, hhome⟩
      · obtain ⟨target, htarget, rfl⟩ := Option.map_eq_some_iff.1 hhome
        obtain ⟨row, hrow, hrowProbable⟩ := mem_validIndices.1 (continuationTarget_spec htarget).2
        refine ⟨(row, target.1), List.mem_filter.2 ⟨?_, hrowProbable⟩, rfl⟩
        exact List.mk_mem_zipIdx_iff_getElem?.2 hrow
  have hperm := (Lists.flatMap_filter_key_perm hnodup hkeys).flatMap_right fun q => q.1.words
  rw [List.flatMap_cons, List.flatMap_append, List.flatMap_map] at hperm
  rw [itemRows, hitems]
  refine (hgrouped.subperm.trans (List.sublist_append_right _ _).subperm).trans (hperm.subperm.trans ?_)
  have hfst : rows.zipIdx.flatMap (fun q => q.1.words) = rows.flatMap (·.words) := by
    rw [← List.flatMap_map, List.zipIdx_map_fst]
  rw [hfst]

/-- A table of a page: its header, and the rows below it that are neither skipped nor behind its end. -/
abbrev Table := DetectedTableHeader × List VisualRow

def tableScanner (E : TableOps) : Scanner VisualRow DetectedTableHeader where
  opens _ row := detectTableHeader E row
  closes _ row := isFooter E row
  skips := isIgnored E

theorem tableScanner_opens (c : Option DetectedTableHeader) (row : VisualRow) :
    (tableScanner E).opens c row = detectTableHeader E row := by
  simp only [tableScanner]

theorem tableScanner_closes (header : DetectedTableHeader) (row : VisualRow) :
    (tableScanner E).closes header row = isFooter E row := by
  simp only [tableScanner]

theorem tableScanner_skips (row : VisualRow) : (tableScanner E).skips row = isIgnored E row := by
  simp only [tableScanner]

def parsedRows (E : TableOps) (table : Table) : List ParsedTableRow :=
  table.2.map fun row => parseTableRow E row (inferColumnRanges E table.1)

/-- The loop resolves the continuations of each table. -/
theorem scanRows_eq (current : Option Table) (rows : List VisualRow) :
    scanRows E (current.map fun t => inferColumnRanges E t.1) (current.elim [] (parsedRows E)) rows =
      ((tableScanner E).sections current rows).flatMap fun t => resolveContinuations E (parsedRows E t) := by
  induction rows generalizing current with
  | nil => cases current <;> simp [scanRows]
  | cons row rows ih =>
    cases hheader : detectTableHeader E row with
    | some header =>
      have hrest := ih (some (header, []))
      have hopens : (tableScanner E).opens (current.map Prod.fst) row = some header := by
        rw [tableScanner_opens, hheader]
      rw [(tableScanner E).sections_opens hopens, List.flatMap_append, ← hrest]
      cases current <;> simp [scanRows, hheader, parsedRows]
    | none =>
      cases current with
      | none =>
        have hopens : (tableScanner E).opens none row = none := by rw [tableScanner_opens, hheader]
        rw [(tableScanner E).sections_none hopens, ← ih none]
        simp [scanRows, hheader]
      | some table =>
        obtain ⟨header, kept⟩ := table
        have hopens : (tableScanner E).opens (some header) row = none := by rw [tableScanner_opens, hheader]
        rw [(tableScanner E).sections_some hopens, tableScanner_closes, tableScanner_skips]
        simp only [Option.map_some, Option.elim_some, scanRows, hheader]
        split_ifs
        · rw [List.flatMap_cons, ← ih none]
          rfl
        · rw [← ih (some (header, kept))]
          rfl
        · rw [← ih (some (header, kept ++ [row]))]
          simp [parsedRows]

/-- The tables of a document, page by page. -/
def tables (E : TableOps) (document : DocumentText) : List Table :=
  let rows := visualRows E defaultToleranceFactor document
  (pageNumbers rows).flatMap fun page => (tableScanner E).sections none (rows.filter (·.page = page))

theorem extractLineItems_eq (document : DocumentText) :
    extractLineItems E document = (tables E document).flatMap fun t => resolveContinuations E (parsedRows E t) := by
  unfold extractLineItems tables
  simp only [List.flatMap_assoc]
  exact List.flatMap_congr fun page _ => scanRows_eq none _

theorem filter_append_filter {α : Type} {key : α → ℕ} {k : ℕ} {xs : List α}
    (hsorted : xs.Pairwise fun a b => key a ≤ key b) (hle : ∀ a ∈ xs, k ≤ key a) :
    (xs.filter fun a => key a = k) ++ (xs.filter fun a => !decide (key a = k)) = xs := by
  induction xs with
  | nil => rfl
  | cons a xs ih =>
    obtain ⟨ha, hsorted⟩ := List.pairwise_cons.1 hsorted
    obtain ⟨hka, hle⟩ := List.forall_mem_cons.1 hle
    by_cases hk : key a = k
    · rw [List.filter_cons_of_pos (by simp [hk]), List.filter_cons_of_neg (by simp [hk]), List.cons_append, ih hsorted hle]
    · have hne : ∀ b ∈ a :: xs, key b ≠ k := by
        intro b hb
        rcases List.mem_cons.1 hb with rfl | hb
        · exact hk
        · have hab := ha b hb
          omega
      rw [List.filter_eq_nil_iff.2 fun b hb => by simp [hne b hb], List.filter_eq_self.2 fun b hb => by simp [hne b hb],
        List.nil_append]

/-- A sorted list is the sequence of its groups, taken in the order of their keys. -/
theorem flatMap_filter_sorted {α : Type} {key : α → ℕ} {ks : List ℕ} {xs : List α} (hks : ks.Pairwise (· < ·))
    (hsorted : xs.Pairwise fun a b => key a ≤ key b) (hkeys : ∀ a ∈ xs, key a ∈ ks) :
    (ks.flatMap fun k => xs.filter fun a => key a = k) = xs := by
  induction ks generalizing xs with
  | nil =>
    have hnil : xs = [] := List.eq_nil_iff_forall_not_mem.2 fun a ha => List.not_mem_nil (hkeys a ha)
    rw [hnil, List.flatMap_nil]
  | cons k ks ih =>
    obtain ⟨hk, hks⟩ := List.pairwise_cons.1 hks
    have hle : ∀ a ∈ xs, k ≤ key a := by
      intro a ha
      rcases List.mem_cons.1 (hkeys a ha) with heq | hmem
      · exact heq.ge
      · exact (hk _ hmem).le
    have hrest : (ks.flatMap fun k' => xs.filter fun a => key a = k') = xs.filter fun a => !decide (key a = k) := by
      rw [← ih hks (hsorted.filter _) fun a ha => ?_]
      · refine List.flatMap_congr fun k' hk' => ?_
        rw [List.filter_filter]
        refine List.filter_congr fun a _ => ?_
        have hne := (hk k' hk').ne'
        by_cases heq : key a = k'
        · simp [heq, hne]
        · simp [heq]
      · obtain ⟨hmem, hne⟩ := List.mem_filter.1 ha
        exact (List.mem_cons.1 (hkeys a hmem)).resolve_left (by simpa using hne)
    rw [List.flatMap_cons, hrest, filter_append_filter hsorted hle]

theorem flatMap_pageNumbers {rows : List VisualRow} (h : rows.Pairwise fun r r' => r.order ≤ r'.order) :
    ((pageNumbers rows).flatMap fun page => rows.filter (·.page = page)) = rows := by
  have hsorted : (pageNumbers rows).Pairwise (· ≤ ·) := List.pairwise_insertionSort _ _
  have hnodup : (pageNumbers rows).Nodup := (List.perm_insertionSort _ _).nodup_iff.2 (List.nodup_dedup _)
  refine flatMap_filter_sorted ?_ (h.imp fun hle => ?_) ?_
  · exact (hsorted.and hnodup).imp fun hle => lt_of_le_of_ne hle.1 hle.2
  · rcases Prod.Lex.toLex_le_toLex.1 hle with hlt | ⟨heq, -⟩
    · exact hlt.le
    · exact heq.le
  · intro row hrow
    rw [pageNumbers, List.mem_insertionSort, List.mem_dedup]
    exact List.mem_map_of_mem hrow

/-- The rows of the tables are rows of the document, in their order. -/
theorem tables_sublist (document : DocumentText) :
    ((tables E document).flatMap Prod.snd).Sublist (visualRows E defaultToleranceFactor document) := by
  have hpages := flatMap_pageNumbers (pairwise_visualRows (E := E) defaultToleranceFactor document)
  unfold tables
  simp only [List.flatMap_assoc]
  conv_rhs => rw [← hpages]
  exact List.Sublist.flatMap_right _ fun page _ => (tableScanner E).sections_sublist none _

/-- An item with the table it stands in and its own row there. -/
structure ItemOrigin where
  table : Table
  own : VisualRow
  item : ItemRow

/-- The items of a table, each with its own row. -/
def tableOrigins (E : TableOps) (table : Table) : List ItemOrigin :=
  table.2.zipIdx.filterMap fun p =>
    (itemRow E (parsedRows E table) (parseTableRow E p.1 (inferColumnRanges E table.1), p.2)).map fun item =>
      ⟨table, p.1, item⟩

/-- An item is its own row, cut into cells, with rows of the same table before and after its description. -/
structure ItemOrigin.Sound (E : TableOps) (document : DocumentText) (o : ItemOrigin) : Prop where
  table : o.table ∈ tables E document
  own : o.own ∈ o.table.2
  onePage : ∀ row ∈ o.table.2, row.page = o.own.page
  words : ∀ w ∈ o.item.row.words, ∃ row ∈ o.table.2, w ∈ row.words
  numbers : o.item.row.quantityWords = (parseTableRow E o.own (inferColumnRanges E o.table.1)).quantityWords ∧
    o.item.row.unitPriceWords = (parseTableRow E o.own (inferColumnRanges E o.table.1)).unitPriceWords ∧
    o.item.row.lineTotalWords = (parseTableRow E o.own (inferColumnRanges E o.table.1)).lineTotalWords
  description : ∃ before after, o.item.row.descriptionWords =
    before ++ (parseTableRow E o.own (inferColumnRanges E o.table.1)).descriptionWords ++ after

theorem map_item_tableOrigins (table : Table) :
    (tableOrigins E table).map (·.item) = itemRows E (parsedRows E table) := by
  have hzip : (parsedRows E table).zipIdx =
      table.2.zipIdx.map fun p => (parseTableRow E p.1 (inferColumnRanges E table.1), p.2) := by
    rw [parsedRows, List.zipIdx_map]
    rfl
  rw [itemRows, hzip, List.filterMap_map, tableOrigins, List.map_filterMap]
  refine List.filterMap_congr fun p _ => ?_
  rw [Option.map_map]
  have hid : (fun o : ItemOrigin => o.item) ∘ (fun item => ItemOrigin.mk table p.1 item) = id := rfl
  rw [hid, Option.map_id, id_eq, Function.comp_apply]

theorem map_own_tableOrigins (table : Table) : ((tableOrigins E table).map (·.own)).Sublist table.2 := by
  have hfst := List.zipIdx_map_fst 0 table.2
  conv_rhs => rw [← hfst]
  unfold tableOrigins
  generalize table.2.zipIdx = ps
  induction ps with
  | nil => exact List.Sublist.refl _
  | cons p ps ih =>
    cases hitem : itemRow E (parsedRows E table) (parseTableRow E p.1 (inferColumnRanges E table.1), p.2) with
    | none =>
      rw [List.filterMap_cons_none (by rw [hitem]; rfl), List.map_cons]
      exact ih.cons _
    | some item =>
      rw [List.filterMap_cons_some (by rw [hitem]; rfl), List.map_cons, List.map_cons]
      exact ih.cons_cons _

theorem words_parsedRows (table : Table) : ((parsedRows E table).flatMap (·.words)).Subperm (table.2.flatMap (·.words)) := by
  unfold parsedRows
  rw [List.flatMap_map]
  generalize table.2 = rows
  induction rows with
  | nil => exact List.Subperm.refl _
  | cons row rows ih =>
    rw [List.flatMap_cons, List.flatMap_cons]
    exact (words_parseTableRow row _).append ih

theorem words_tableOrigins (table : Table) :
    ((tableOrigins E table).flatMap (·.item.row.words)).Subperm (table.2.flatMap (·.words)) := by
  have hitems := words_itemRows (E := E) (parsedRows E table)
  rw [← map_item_tableOrigins, List.flatMap_map] at hitems
  exact hitems.trans (words_parsedRows table)

theorem page_of_tables {document : DocumentText} {table : Table} (h : table ∈ tables E document) :
    ∀ row ∈ table.2, ∀ row' ∈ table.2, row.page = row'.page := by
  unfold tables at h
  obtain ⟨page, -, hsection⟩ := List.mem_flatMap.1 h
  have hmem : ∀ row ∈ table.2, row.page = page := by
    intro row hrow
    have hsub := (tableScanner E).sections_sublist none
      ((visualRows E defaultToleranceFactor document).filter (·.page = page))
    have hrows := hsub.subset (List.mem_flatMap.2 ⟨table, hsection, hrow⟩)
    exact of_decide_eq_true (List.mem_filter.1 hrows).2
  intro row hrow row' hrow'
  rw [hmem row hrow, hmem row' hrow']

theorem sound_tableOrigins {document : DocumentText} {table : Table} (h : table ∈ tables E document) {o : ItemOrigin}
    (ho : o ∈ tableOrigins E table) : o.Sound E document := by
  have hwords : ∀ w ∈ o.item.row.words, ∃ row ∈ table.2, w ∈ row.words := by
    intro w hw
    exact List.mem_flatMap.1 ((words_tableOrigins table).subset (List.mem_flatMap.2 ⟨o, ho, hw⟩))
  obtain ⟨p, hp, horigin⟩ := List.mem_filterMap.1 ho
  obtain ⟨item, hitem, rfl⟩ := Option.map_eq_some_iff.1 horigin
  have hown : p.1 ∈ table.2 := List.fst_mem_of_mem_zipIdx hp
  unfold itemRow at hitem
  split_ifs at hitem
  obtain rfl := Option.some.inj hitem
  refine ⟨h, hown, fun row hrow => page_of_tables h row hrow p.1 hown, hwords, ?_, ?_⟩
  · unfold continueRow
    split_ifs <;> exact ⟨rfl, rfl, rfl⟩
  · unfold continueRow
    split_ifs
    · exact ⟨_, _, rfl⟩
    · exact ⟨[], [], by simp⟩

end

/-- The rows share the words of each page out, and stand in the order of pages and of places on the page. -/
structure SharesOut (document : DocumentText) (rows : List VisualRow) : Prop where
  pages : ∃ rowsOf : PageText → List VisualRow, rows.Perm (document.pages.flatMap rowsOf) ∧
    ∀ page ∈ document.pages, ((rowsOf page).flatMap (·.words)).Perm page.words ∧ ∀ row ∈ rowsOf page, row.page = page.page
  ordered : rows.Pairwise fun r r' => r.order ≤ r'.order

/-- Table extraction neither duplicates nor invents words. Every word of a page is in one of its rows; below a
header every place of the width is in one column, and every word has one; and every word comes into one cell of
one item at most, where the cells of an item come from one table on one page, and the items follow the rows. -/
theorem extractLineItems_words (E : TableOps) (document : DocumentText) :
    (∀ factor, 0 < factor → ∃ rows, reconstructVisualRows E factor document = .ok rows ∧ SharesOut document rows) ∧
    (∀ row header, detectTableHeader E row = some header →
      (∀ x : ℚ, 0 ≤ x → x ≤ 1 → ∃! i, InRange (inferColumnRanges E header) x i) ∧
      ∀ w : WordToken, ∃ i r, (inferColumnRanges E header)[i]? = some r ∧
        InRange (inferColumnRanges E header) (E.floatMid w.bbox.x0 w.bbox.x1) i ∧
        columnForWord E w (inferColumnRanges E header) = some r.column) ∧
    ∃ origins : List ItemOrigin, extractLineItems E document = origins.map (fun o => toInvoiceLine E o.item) ∧
      (origins.flatMap (·.item.row.words)).Subperm (document.pages.flatMap (·.words)) ∧
      (origins.map (·.own)).Sublist (visualRows E defaultToleranceFactor document) ∧
      ∀ o ∈ origins, o.Sound E document := by
  refine ⟨?_, fun row header _ => inferColumnRanges_cover header, ?_⟩
  · intro factor hfactor
    refine ⟨visualRows E factor document, if_neg (not_le.2 hfactor), ⟨pageRows E factor, visualRows_perm factor document, ?_⟩,
      pairwise_visualRows factor document⟩
    exact fun page _ => ⟨pageRows_words factor page, fun row hrow => page_of_mem_pageRows hrow⟩
  · refine ⟨(tables E document).flatMap (tableOrigins E), ?_, ?_, ?_, ?_⟩
    · rw [extractLineItems_eq, List.map_flatMap]
      refine List.flatMap_congr fun table _ => ?_
      rw [resolveContinuations, ← map_item_tableOrigins, List.map_map]
      rfl
    · rw [List.flatMap_assoc]
      have htables : ∀ ts : List Table, (ts.flatMap fun t => (tableOrigins E t).flatMap (·.item.row.words)).Subperm
          ((ts.flatMap Prod.snd).flatMap (·.words)) := by
        intro ts
        induction ts with
        | nil => exact List.Subperm.refl _
        | cons t ts ih =>
          rw [List.flatMap_cons, List.flatMap_cons, List.flatMap_append]
          exact (words_tableOrigins t).append ih
      refine (htables _).trans ?_
      have hrows := ((tables_sublist (E := E) document).flatMap fun r => r.words).subperm
      exact hrows.trans (visualRows_words defaultToleranceFactor document).subperm
    · rw [List.map_flatMap]
      refine List.Sublist.trans ?_ (tables_sublist document)
      exact List.Sublist.flatMap_right _ fun t _ => map_own_tableOrigins t
    · intro o ho
      obtain ⟨table, htable, hmem⟩ := List.mem_flatMap.1 ho
      exact sound_tableOrigins htable hmem

end InvoiceOps
