import InvoiceOps.Extraction.Location
import InvoiceOps.Extraction.PurchaseOrderRows
import Mathlib.Data.List.DropRight

/-! Grounding of the candidates for supporting documents (`extraction/supporting_hybrid.py`,
`extraction/supporting_quote_grounding.py`). The quote of a candidate is located by its letters and digits alone, and
the value is compared with pieces of the quote, never with the words that were found. The value is printed there when
the page spells the dates and amounts of the quote as the quote does; another sign or decimal point goes unnoticed. -/

namespace InvoiceOps

open Calendar Text

inductive SupportingValue
  | text (value : String)
  | date (value : Date)
  | decimal (value : Decimal)
deriving DecidableEq, Repr

namespace SupportingValue

/-- Equality in Python: decimals are compared as numbers. -/
def same : SupportingValue → SupportingValue → Bool
  | .text a, .text b => a == b
  | .date a, .date b => a == b
  | .decimal a, .decimal b => decide (a.numEq b)
  | _, _ => false

def isText : SupportingValue → Bool
  | .text _ => true
  | .date _ => false
  | .decimal _ => false

end SupportingValue

/-- `_normalize_value` -/
def normalizeSupporting (U : Unicode) (fieldName raw : String) : Option SupportingValue :=
  if fieldName = "invoice_date" then (parseInvoiceDate U raw).map .date
  else if fieldName = "currency" then (normalizeCurrency U raw).map .text
  else if fieldName ∈ ["subtotal", "tax", "total", "quantity", "unit_price", "line_total"] then
    (parseMoney raw).map .decimal
  else if normalizeWhitespace raw = "" then none else some (.text (normalizeWhitespace raw))

def supportingField (U : Unicode) (fieldName : String) : FieldKind SupportingValue where
  name := fieldName
  normalize := normalizeSupporting U fieldName
  same := SupportingValue.same
  keepsDigits := false

/-- `_normalization_name` -/
def normalizationName (name : String) : String :=
  if name ∈ ["issue_date", "received_date"] then "invoice_date"
  else if name ∈ ["subtotal", "tax", "total", "ordered_quantity", "received_quantity", "accepted_quantity",
      "rejected_quantity", "unit_price", "line_total"] then "line_total"
  else name

theorem GroundingReason.quoteNotFound_rejected : GroundingReason.quoteNotFound.grounded = false := rfl

theorem GroundingReason.quoteNotUnique_rejected : GroundingReason.quoteNotUnique.grounded = false := rfl

theorem GroundingReason.valueNormalizationFailed_rejected : GroundingReason.valueNormalizationFailed.grounded = false := rfl

theorem GroundingReason.pageOutOfRange_rejected : GroundingReason.pageOutOfRange.grounded = false := rfl

section

variable (E : GroundingOps)

/-- The words that own a part of the window, each once. -/
def quotedTokens (words : List WordToken) (start length : ℕ) : List WordToken :=
  ((slice ((pageStream E.toUnicode words).map (·.2)) start (start + length)).eraseDups).map words.get

/-- `_grounded`; a window that is found is not empty. -/
def groundedWindow (words : List WordToken) (start length : ℕ) (value : SupportingValue) (fuzzy : Bool) :
    GroundingResult SupportingValue :=
  match quotedTokens E words start length with
  | [] => .reject .quoteNotFound (some value) GroundingReason.quoteNotFound_rejected
  | token :: tokens =>
    { reason := boundReason fuzzy
      normalizedValue := some value
      evidence := evidenceFromWords E (token :: tokens)
      contract := fun _ => ⟨rfl, evidenceFromWords_ne_nil (List.cons_ne_nil _ _)⟩ }

/-- The part of `locate_supporting_quote` that searches the words of the page. -/
def locateOnPage (threshold : ℚ) (words : List WordToken) (evidenceQuote : String) (value : SupportingValue) :
    GroundingResult SupportingValue :=
  let stream := pageStream E.toUnicode words
  let quote := parts E.toUnicode evidenceQuote
  if quote = [] then .reject .quoteNotFound (some value) GroundingReason.quoteNotFound_rejected
  else
    match exactStarts stream quote with
    | [start] => groundedWindow E words start quote.length value false
    | _ :: _ :: _ => .reject .quoteNotUnique (some value) GroundingReason.quoteNotUnique_rejected
    | [] =>
      match bestWindows (scoredWindows E threshold stream quote) with
      | [] => .reject .quoteNotFound (some value) GroundingReason.quoteNotFound_rejected
      | _ :: _ :: _ => .reject .quoteNotUnique (some value) GroundingReason.quoteNotUnique_rejected
      | [w] => groundedWindow E words w.1 w.2 value true

def locateSupportingQuote (threshold : ℚ) (fieldName : String) (candidate : CandidateField) (document : DocumentText) :
    GroundingResult SupportingValue :=
  match candidate.rawValue with
  | none => .reject .quoteNotFound none GroundingReason.quoteNotFound_rejected
  | some raw =>
    match normalizeSupporting E.toUnicode fieldName raw with
    | none => .reject .valueNormalizationFailed none GroundingReason.valueNormalizationFailed_rejected
    | some value =>
      match candidate.page.bind fun p => document.pages[p]? with
      | none => .reject .pageOutOfRange (some value) GroundingReason.pageOutOfRange_rejected
      | some page =>
        match candidate.evidenceQuote with
        | none => .reject .quoteNotFound (some value) GroundingReason.quoteNotFound_rejected
        | some quote =>
          if strip quote = "" then .reject .quoteNotFound (some value) GroundingReason.quoteNotFound_rejected
          else locateOnPage E threshold (sortedWords page) quote value

end

section

variable (E : TableOps)

/-- `[\w./+-]+` -/
def quotePieces (quote : String) : List String :=
  runs (fun c => E.isWord c || c == '.' || c == '/' || c == '+' || c == '-') quote

/-- At most five pieces that follow each other, with a blank between two. -/
def pieceWindows (pieces : List String) : List String :=
  (List.range pieces.length).flatMap fun start =>
    (List.range' 1 (min 5 (pieces.length - start))).map fun size => " ".intercalate (slice pieces start (start + size))

/-- `_value_supported` -/
def valueSupported (name : String) (value : SupportingValue) (quote : String) : Bool :=
  let windows := pieceWindows (quotePieces E quote)
  match value with
  | .decimal d => windows.any fun piece => (parseMoney piece).any fun v => decide (v.numEq d)
  | .date d => windows.any fun piece => parseInvoiceDate E.toUnicode piece == some d
  | .text t =>
    if name = "currency" then windows.any fun piece => normalizeCurrency E.toUnicode piece == some t
    else
      let expected := normalizeIdentifier E t
      expected != "" && windows.any fun piece => normalizeIdentifier E piece == expected

section
open Regex.Pattern

def amountLabel (name : String) : Option Regex.Pattern :=
  if name = "subtotal" then some (seq boundary (seq (letters "sub") (seq spaces (seq (letters "total") boundary))))
  else if name = "tax" then
    some (seq boundary (seq (oneOf [letters "tax", letters "gst", letters "vat"]) boundary))
  else if name = "total" then
    some (seq boundary (seq (oneOf [seq (letters "grand") (seq blanks (letters "total")),
      seq (letters "amount") (seq blanks (letters "due")), letters "total"]) boundary))
  else none

/-- `[+-]?\d[\d,.]*` -/
def numberPattern : Regex.Pattern :=
  let digit := fun c => (E.digit c).isSome
  seq (opt (one fun c => c == '+' || c == '-')) (seq (one digit) (many fun c => digit c || c == ',' || c == '.'))

end

/-- An amount in the header is the first number after its label. -/
def labelSupported (name : String) (value : SupportingValue) (quote : String) : Bool :=
  match amountLabel name with
  | none => true
  | some label =>
    match Regex.search E.isWord label quote.toList with
    | none => false
    | some m =>
      match Regex.search E.isWord (numberPattern E) m.2.2 with
      | none => false
      | some number => (parseMoney (String.ofList (Regex.matched number))).any fun v => (SupportingValue.decimal v).same value

/-- `_COLUMN_ALIASES` -/
def columnAliases : List (String × List String) :=
  [("description", ["description", "item", "product", "details"]), ("ordered_quantity", ["qty", "quantity", "ordered"]),
    ("unit_price", ["price", "rate"]), ("line_total", ["amount", "total"]), ("received_quantity", ["received", "delivered"]),
    ("accepted_quantity", ["accepted"]), ("rejected_quantity", ["rejected", "damaged"])]

/-- `anchors[column] = x`; a column keeps its place. -/
def setAnchor (anchors : List (String × ℚ)) (column : String) (x : ℚ) : List (String × ℚ) :=
  if column ∈ anchors.map Prod.fst then anchors.map fun a => if a.1 = column then (column, x) else a
  else anchors ++ [(column, x)]

/-- The columns a row has labels of, with the middle of the last label of each. -/
def labelAnchors (row : VisualRow) : List (String × ℚ) :=
  row.words.foldl (fun anchors word =>
    let label := String.ofList ((E.casefold word.text).toList.rdropWhile fun c => c == '.' || c == ':')
    columnAliases.foldl (fun anchors entry =>
      if label ∈ entry.2 then setAnchor anchors entry.1 (E.floatMid word.bbox.x0 word.bbox.x1) else anchors) anchors) []

/-- The rows above the span that may be its header. -/
def possibleHeaders (name : String) (span : EvidenceSpan) (document : DocumentText) : List (ℚ × List (String × ℚ)) :=
  (visualRows E defaultToleranceFactor document).filterMap fun row =>
    let anchors := labelAnchors E row
    if row.page = span.page ∧ row.y1 < span.bbox.y0 ∧ "description" ∈ anchors.map Prod.fst ∧ name ∈ anchors.map Prod.fst ∧
        3 ≤ anchors.length then some (row.y1, anchors)
    else none

/-- The ends of a column halfway to the labels next to its own. -/
def columnEnds (name : String) (anchors : List (String × ℚ)) : ℚ × ℚ :=
  let ordered := anchors.insertionSort fun a b => a.2 ≤ b.2
  let index := ordered.findIdx fun a => a.1 = name
  let center := fun i => (ordered.map Prod.snd).getD i 0
  (if index = 0 then 0 else E.floatMid (center (index - 1)) (center index),
    if index = ordered.length - 1 then 1 else E.floatMid (center index) (center (index + 1)))

/-- `_column_supported`, for the evidence of the field. -/
def columnSupported (name : String) (evidence : List EvidenceSpan) (document : DocumentText) : Bool :=
  match evidence with
  | [] => false
  | span :: _ =>
    let center := E.floatMid span.bbox.x0 span.bbox.x1
    match possibleHeaders E name span document with
    | [] => false
    | header :: headers =>
      let nearest := headers.foldl (fun best h => if best.1 < h.1 then h else best) header
      let ends := columnEnds E name nearest.2
      decide (ends.1 ≤ center ∧ center ≤ ends.2)

def columnNames : List String :=
  ["ordered_quantity", "unit_price", "line_total", "received_quantity", "accepted_quantity", "rejected_quantity"]

/-- What the quote and the place of the evidence must be for the value. -/
def quoteChecks (name : String) (value : SupportingValue) (quote : String) (evidence : List EvidenceSpan)
    (document : DocumentText) : Bool :=
  valueSupported E name value quote && labelSupported E name value quote &&
    (!columnNames.contains name || columnSupported E name evidence document)

theorem proposed_not_missing (value : SupportingValue) (h : ExtractionStatus.extracted = .missing) :
    some value = none := nomatch h

def proposedField (value : SupportingValue) (evidence : List EvidenceSpan) (h : evidence ≠ []) :
    ExtractedField SupportingValue where
  value := some value
  status := .extracted
  evidence := evidence
  ruleId := some "supporting.vlm.grounded.v1"
  extracted_contract _ := ⟨rfl, h⟩
  missing_contract := proposed_not_missing value

/-- `_ground_field`; the location is asked for windows that are equal. -/
def groundField (name : String) (candidate : CandidateField) (document : DocumentText) :
    Option (ExtractedField SupportingValue) × String :=
  let result := locateSupportingQuote E.toGroundingOps 100 (normalizationName name) candidate document
  if hgrounded : result.grounded = true then
    match result.normalizedValue, candidate.evidenceQuote with
    | some value, some quote =>
      if quoteChecks E name value quote result.evidence document then
        (some (proposedField value result.evidence (result.contract hgrounded).2), result.reason.value)
      else (none, GroundingReason.valueNormalizationFailed.value)
    | _, _ => (none, GroundingReason.valueNormalizationFailed.value)
  else (none, result.reason.value)

end

section

variable {E : GroundingOps} {threshold : ℚ} {words : List WordToken} {quote : String} {value : SupportingValue}
  {start length : ℕ}

/-- The only place of the quote, or else the only best window. -/
def Located (E : GroundingOps) (threshold : ℚ) (words : List WordToken) (quote : String) (start length : ℕ) : Prop :=
  parts E.toUnicode quote ≠ [] ∧
    (exactStarts (pageStream E.toUnicode words) (parts E.toUnicode quote) = [start] ∧
        length = (parts E.toUnicode quote).length ∨
      exactStarts (pageStream E.toUnicode words) (parts E.toUnicode quote) = [] ∧
        bestWindows (scoredWindows E threshold (pageStream E.toUnicode words) (parts E.toUnicode quote)) = [(start, length)])

theorem Located.window (h : Located E threshold words quote start length) :
    WindowAt (pageStream E.toUnicode words) start length := by
  obtain ⟨hquote, ⟨hstart, rfl⟩ | ⟨-, hbest⟩⟩ := h
  · have hmem : start ∈ exactStarts (pageStream E.toUnicode words) (parts E.toUnicode quote) := by
      rw [hstart]
      exact List.mem_singleton_self _
    exact ((mem_exactStarts hquote).1 hmem).1
  · obtain ⟨score, hscore, -⟩ := bestWindows_single hbest
    exact (mem_scoredWindows.1 hscore).1

theorem Located.unique {start' length' : ℕ} (h : Located E threshold words quote start length)
    (h' : Located E threshold words quote start' length') : start = start' ∧ length = length' := by
  obtain ⟨-, ⟨hstart, rfl⟩ | ⟨hnone, hbest⟩⟩ := h
  · obtain ⟨-, ⟨hstart', rfl⟩ | ⟨hnone', -⟩⟩ := h'
    · rw [hstart] at hstart'
      exact ⟨(List.cons.inj hstart').1, rfl⟩
    · rw [hstart] at hnone'
      cases hnone'
  · obtain ⟨-, ⟨hstart', rfl⟩ | ⟨-, hbest'⟩⟩ := h'
    · rw [hnone] at hstart'
      cases hstart'
    · rw [hbest] at hbest'
      exact Prod.mk.inj (List.cons.inj hbest').1

theorem Located.tokens_ne (h : Located E threshold words quote start length) : quotedTokens E words start length ≠ [] := by
  obtain ⟨hpos, hle, -⟩ := h.window
  have hslice : slice ((pageStream E.toUnicode words).map (·.2)) start (start + length) ≠ [] :=
    slice_ne_nil ⟨by omega, by rwa [List.length_map]⟩
  obtain ⟨owner, howner⟩ := List.exists_mem_of_ne_nil _ hslice
  rw [quotedTokens]
  exact List.ne_nil_of_mem (List.mem_map_of_mem (List.mem_eraseDups.2 howner))

theorem groundedWindow_of_located {fuzzy : Bool} (h : quotedTokens E words start length ≠ []) :
    (groundedWindow E words start length value fuzzy).reason = boundReason fuzzy ∧
      (groundedWindow E words start length value fuzzy).normalizedValue = some value ∧
      (groundedWindow E words start length value fuzzy).evidence =
        evidenceFromWords E (quotedTokens E words start length) := by
  unfold groundedWindow
  split
  · rename_i hnil
    exact absurd hnil h
  · rename_i token tokens htokens
    rw [htokens]
    exact ⟨rfl, rfl, rfl⟩

theorem boundReason_grounded (fuzzy : Bool) : (boundReason fuzzy).grounded = true := by cases fuzzy <;> rfl

/-- The search of a page that finds the quote answers with the words that own it. -/
theorem locateOnPage_of_located (h : Located E threshold words quote start length) :
    (locateOnPage E threshold words quote value).grounded = true ∧
      (locateOnPage E threshold words quote value).normalizedValue = some value ∧
      (locateOnPage E threshold words quote value).evidence =
        evidenceFromWords E (quotedTokens E words start length) := by
  have htokens := h.tokens_ne
  have hwindow : ∃ fuzzy, locateOnPage E threshold words quote value = groundedWindow E words start length value fuzzy := by
    obtain ⟨hquote, ⟨hstart, rfl⟩ | ⟨hnone, hbest⟩⟩ := h
    · exact ⟨false, by simp only [locateOnPage, if_neg hquote, hstart]⟩
    · exact ⟨true, by simp only [locateOnPage, if_neg hquote, hnone, hbest]⟩
  obtain ⟨fuzzy, heq⟩ := hwindow
  obtain ⟨hreason, hvalue, hevidence⟩ := @groundedWindow_of_located E words value start length fuzzy htokens
  rw [heq]
  refine ⟨?_, hvalue, hevidence⟩
  rw [GroundingResult.grounded, hreason]
  exact boundReason_grounded fuzzy

theorem located_of_grounded (h : (locateOnPage E threshold words quote value).grounded = true) :
    ∃ start length, Located E threshold words quote start length := by
  simp only [locateOnPage] at h
  split at h
  · simp at h
  · rename_i hquote
    split at h
    · rename_i start hstart
      exact ⟨start, _, hquote, .inl ⟨hstart, rfl⟩⟩
    · simp at h
    · rename_i hnone
      split at h
      · simp at h
      · simp at h
      · rename_i w hw
        exact ⟨w.1, w.2, hquote, .inr ⟨hnone, hw⟩⟩

/-- The candidate names a page, has this value, and these words own its quote. -/
def QuotedBy (E : TableOps) (name : String) (candidate : CandidateField) (document : DocumentText)
    (value : SupportingValue) (quote : String) (tokens : List WordToken) : Prop :=
  ∃ p page raw start length, candidate.page = some p ∧ document.pages[p]? = some page ∧ candidate.rawValue = some raw ∧
    normalizeSupporting E.toUnicode (normalizationName name) raw = some value ∧ candidate.evidenceQuote = some quote ∧
    strip quote ≠ "" ∧ Located E.toGroundingOps 100 (sortedWords page) quote start length ∧
    tokens = quotedTokens E.toGroundingOps (sortedWords page) start length

end

section

variable {E : TableOps} {name quote : String} {candidate : CandidateField} {document : DocumentText}
  {value : SupportingValue} {tokens : List WordToken}

theorem QuotedBy.unique {value' : SupportingValue} {quote' : String} {tokens' : List WordToken}
    (h : QuotedBy E name candidate document value quote tokens)
    (h' : QuotedBy E name candidate document value' quote' tokens') : value = value' ∧ quote = quote' ∧ tokens = tokens' := by
  obtain ⟨p, page, raw, start, length, hp, hpage, hraw, hvalue, hquote, -, hlocated, rfl⟩ := h
  obtain ⟨p', page', raw', start', length', hp', hpage', hraw', hvalue', hquote', -, hlocated', rfl⟩ := h'
  obtain rfl : p = p' := Option.some.inj (hp.symm.trans hp')
  obtain rfl : page = page' := Option.some.inj (hpage.symm.trans hpage')
  obtain rfl : raw = raw' := Option.some.inj (hraw.symm.trans hraw')
  obtain rfl : quote = quote' := Option.some.inj (hquote.symm.trans hquote')
  obtain ⟨rfl, rfl⟩ := hlocated.unique hlocated'
  exact ⟨Option.some.inj (hvalue.symm.trans hvalue'), rfl, rfl⟩

theorem locate_of_quotedBy (h : QuotedBy E name candidate document value quote tokens) :
    (locateSupportingQuote E.toGroundingOps 100 (normalizationName name) candidate document).grounded = true ∧
      (locateSupportingQuote E.toGroundingOps 100 (normalizationName name) candidate document).normalizedValue = some value ∧
      (locateSupportingQuote E.toGroundingOps 100 (normalizationName name) candidate document).evidence =
        evidenceFromWords E.toGroundingOps tokens := by
  obtain ⟨p, page, raw, start, length, hp, hpage, hraw, hvalue, hquote, hblank, hlocated, rfl⟩ := h
  have hlocate : locateSupportingQuote E.toGroundingOps 100 (normalizationName name) candidate document =
      locateOnPage E.toGroundingOps 100 (sortedWords page) quote value := by
    simp only [locateSupportingQuote, hraw, hvalue, hp, Option.bind_some, hpage, hquote, if_neg hblank]
  rw [hlocate]
  exact locateOnPage_of_located hlocated

theorem quotedBy_of_grounded
    (h : (locateSupportingQuote E.toGroundingOps 100 (normalizationName name) candidate document).grounded = true) :
    ∃ value quote tokens, QuotedBy E name candidate document value quote tokens := by
  unfold locateSupportingQuote at h
  split at h
  · simp at h
  · rename_i raw hraw
    split at h
    · simp at h
    · rename_i value hvalue
      split at h
      · simp at h
      · rename_i page hbind
        obtain ⟨p, hp, hpage⟩ := Option.bind_eq_some_iff.1 hbind
        split at h
        · simp at h
        · rename_i quote hquote
          split_ifs at h with hblank
          · simp at h
          · obtain ⟨start, length, hlocated⟩ := located_of_grounded h
            exact ⟨value, quote, _, p, page, raw, start, length, hp, hpage, hraw, hvalue, hquote, hblank, hlocated, rfl⟩

/-- A field is proposed when the quote is located and passes its checks; its evidence is that of the quoted words. -/
theorem groundField_of_quotedBy (h : QuotedBy E name candidate document value quote tokens)
    (hchecks : quoteChecks E name value quote (evidenceFromWords E.toGroundingOps tokens) document = true) :
    ∃ field reason, groundField E name candidate document = (some field, reason) ∧ field.value = some value ∧
      field.evidence = evidenceFromWords E.toGroundingOps tokens := by
  obtain ⟨hgrounded, hvalue, hevidence⟩ := locate_of_quotedBy h
  have hquote : candidate.evidenceQuote = some quote := by
    obtain ⟨p, page, raw, start, length, -, -, -, -, hquote, -⟩ := h
    exact hquote
  rw [groundField]
  simp only [dif_pos hgrounded, hvalue, hquote]
  rw [if_pos (by rw [hevidence]; exact hchecks)]
  exact ⟨_, _, rfl, rfl, hevidence⟩

theorem quotedBy_of_groundField {field : ExtractedField SupportingValue} {reason : String}
    (h : groundField E name candidate document = (some field, reason)) :
    ∃ value quote tokens, QuotedBy E name candidate document value quote tokens ∧
      quoteChecks E name value quote (evidenceFromWords E.toGroundingOps tokens) document = true ∧
      field.value = some value ∧ field.evidence = evidenceFromWords E.toGroundingOps tokens := by
  unfold groundField at h
  simp only at h
  split at h
  · rename_i hgrounded
    obtain ⟨value, quote, tokens, hquoted⟩ := quotedBy_of_grounded hgrounded
    obtain ⟨-, hvalue, hevidence⟩ := locate_of_quotedBy hquoted
    have hquote : candidate.evidenceQuote = some quote := by
      obtain ⟨p, page, raw, start, length, -, -, -, -, hquote, -⟩ := hquoted
      exact hquote
    simp only [hvalue, hquote] at h
    split_ifs at h with hchecks
    · obtain rfl := Option.some.inj (Prod.mk.inj h).1
      rw [hevidence] at hchecks
      exact ⟨value, quote, tokens, hquoted, hchecks, rfl, hevidence⟩
    · cases h
  · cases h

/-- The value of a proposed date or amount is what a run of the words of its evidence reads as. -/
def PrintedValue (E : TableOps) (name : String) (candidate : CandidateField) (document : DocumentText) : Prop :=
  ∀ field reason value, groundField E name candidate document = (some field, reason) → field.value = some value →
    value.isText = false →
    ∃ quote tokens run, QuotedBy E name candidate document value quote tokens ∧
      field.evidence = evidenceFromWords E.toGroundingOps tokens ∧ run ≠ [] ∧ run <:+: tokens ∧
      (supportingField E.toUnicode (normalizationName name)).reads (joinTexts run) value = true

/-- The places of the page where the letters and digits of the quote stand, exactly or as similar as is asked for. -/
def quotePlaces (E : GroundingOps) (threshold : ℚ) (words : List WordToken) (quote : String) : List (ℕ × ℕ) :=
  let stream := pageStream E.toUnicode words
  let quoted := parts E.toUnicode quote
  (exactStarts stream quoted).map (·, quoted.length) ++ (scoredWindows E threshold stream quoted).map (·.2)

/-- Wherever the letters and digits of the quote stand on the page it names, each stretch of the quote that could be
read as a date or an amount is the text of words there, with its sign and its points. -/
def SpelledOnPage (E : TableOps) (name : String) (candidate : CandidateField) (document : DocumentText) : Prop :=
  ∀ p page quote, candidate.page = some p → document.pages[p]? = some page → candidate.evidenceQuote = some quote →
    ∀ place ∈ quotePlaces E.toGroundingOps 100 (sortedWords page) quote, ∀ piece ∈ pieceWindows (quotePieces E quote),
      ((normalizeSupporting E.toUnicode (normalizationName name) piece).any fun value => !value.isText) = true →
        ∃ run, run ≠ [] ∧ run <:+: quotedTokens E.toGroundingOps (sortedWords page) place.1 place.2 ∧ joinTexts run = piece

theorem Located.mem_quotePlaces {E : GroundingOps} {threshold : ℚ} {words : List WordToken} {start length : ℕ}
    (h : Located E threshold words quote start length) : (start, length) ∈ quotePlaces E threshold words quote := by
  obtain ⟨-, ⟨hstart, rfl⟩ | ⟨-, hbest⟩⟩ := h
  · exact List.mem_append_left _ (List.mem_map_of_mem (hstart ▸ List.mem_singleton_self start))
  · obtain ⟨score, hscore, -⟩ := bestWindows_single hbest
    have hplace : (start, length) ∈
        (scoredWindows E threshold (pageStream E.toUnicode words) (parts E.toUnicode quote)).map (·.2) :=
      List.mem_map.2 ⟨_, hscore, rfl⟩
    exact List.mem_append_right _ hplace

theorem exists_run_iff {α : Type} {xs : List α} {p : List α → Prop} : (∃ run, run ≠ [] ∧ run <:+: xs ∧ p run) ↔
    ∃ left right, left < right ∧ right ≤ xs.length ∧ p (slice xs left right) := by
  constructor
  · rintro ⟨run, hne, ⟨before, after, rfl⟩, hp⟩
    refine ⟨before.length, before.length + run.length, ?_, ?_, ?_⟩
    · have hpos := List.length_pos_of_ne_nil hne
      omega
    · simp only [List.length_append]
      omega
    · have hslice : slice (before ++ run ++ after) before.length (before.length + run.length) = run := by
        rw [slice, List.append_assoc, List.drop_left, Nat.add_sub_cancel_left, List.take_left]
      rw [hslice]
      exact hp
  · rintro ⟨left, right, hlt, hle, hp⟩
    refine ⟨slice xs left right, slice_ne_nil ⟨hlt, hle⟩, ?_, hp⟩
    exact (List.take_prefix _ _).isInfix.trans (List.drop_suffix _ _).isInfix

theorem valueMatches_ne_nil_iff {kind : FieldKind SupportingValue} : valueMatches kind tokens 0 tokens.length value ≠ [] ↔
    ∃ run, run ≠ [] ∧ run <:+: tokens ∧ kind.reads (joinTexts run) value = true := by
  rw [exists_run_iff]
  constructor
  · intro h
    obtain ⟨m, hm⟩ := List.exists_mem_of_ne_nil _ h
    obtain ⟨-, hlt, hle, hreads⟩ := mem_valueMatches_iff.1 hm
    exact ⟨m.1, m.2, hlt, hle, hreads⟩
  · rintro ⟨left, right, hlt, hle, hreads⟩
    exact List.ne_nil_of_mem (mem_valueMatches_iff.2 ⟨Nat.zero_le _, hlt, hle, hreads⟩ : (left, right) ∈ _)

/-- A value that is printed is found by the search of `_bind_value`, which the invoice path makes and this one leaves
out. -/
theorem valueMatches_of_printedValue (h : PrintedValue E name candidate document)
    (hquoted : QuotedBy E name candidate document value quote tokens) (htext : value.isText = false)
    (hchecks : quoteChecks E name value quote (evidenceFromWords E.toGroundingOps tokens) document = true) :
    valueMatches (supportingField E.toUnicode (normalizationName name)) tokens 0 tokens.length value ≠ [] := by
  obtain ⟨field, reason, hfield, hvalue, -⟩ := groundField_of_quotedBy hquoted hchecks
  obtain ⟨quote', tokens', run, hquoted', -, hne, hrun, hreads⟩ := h field reason value hfield hvalue htext
  obtain ⟨-, -, rfl⟩ := hquoted.unique hquoted'
  exact valueMatches_ne_nil_iff.2 ⟨run, hne, hrun, hreads⟩

/-- The windows of the quote that support a date or an amount are read by the field's own normalisation. -/
theorem reads_of_valueSupported {raw : String}
    (hvalue : normalizeSupporting E.toUnicode (normalizationName name) raw = some value)
    (htext : value.isText = false) (h : valueSupported E name value quote = true) :
    ∃ piece ∈ pieceWindows (quotePieces E quote),
      (supportingField E.toUnicode (normalizationName name)).reads piece value = true := by
  cases value with
  | text t => cases htext
  | date d =>
    obtain ⟨piece, hpiece, hreads⟩ := List.any_eq_true.1 h
    refine ⟨piece, hpiece, ?_⟩
    have hdate : normalizationName name = "invoice_date" := by
      unfold normalizeSupporting at hvalue
      split_ifs at hvalue with hname
      · exact hname
      · simp at hvalue
      · simp at hvalue
      · simp at hvalue
    have hnormalize : (supportingField E.toUnicode (normalizationName name)).normalize piece = some (.date d) := by
      change normalizeSupporting _ _ _ = _
      rw [normalizeSupporting, if_pos hdate, eq_of_beq hreads, Option.map_some]
    rw [FieldKind.reads, hnormalize]
    exact beq_self_eq_true d
  | decimal d =>
    obtain ⟨piece, hpiece, hreads⟩ := List.any_eq_true.1 h
    refine ⟨piece, hpiece, ?_⟩
    have hnormalize : (supportingField E.toUnicode (normalizationName name)).normalize piece =
        (parseMoney piece).map .decimal := by
      change normalizeSupporting _ _ _ = _
      unfold normalizeSupporting at hvalue ⊢
      split_ifs at hvalue ⊢
      · simp at hvalue
      · simp at hvalue
      · rfl
      · simp at hvalue
      · simp at hvalue
    rw [FieldKind.reads, hnormalize, Option.any_map]
    exact hreads

theorem not_isText_of_same {v : SupportingValue} (hsame : v.same value = true) (htext : value.isText = false) :
    v.isText = false := by
  cases v with
  | text t =>
    cases value with
    | text t' => exact htext
    | date d => cases hsame
    | decimal d => cases hsame
  | date d => rfl
  | decimal d => rfl

end

/-- The exact operations on texts of ASCII letters and digits. -/
def asciiTables : TableOps where
  toGroundingOps := asciiGrounding
  lower := String.toLower
  isDigit := Char.isDigit
  floatAdd := fun a b => a + b
  floatMul := fun a b => a * b
  floatDiv := fun a b => a / b
  between := by
    intro a b h
    change a ≤ (a + b) / 2 ∧ (a + b) / 2 ≤ b
    constructor
    · linarith
    · linarith

def invoicePage : DocumentText := ⟨[⟨0, [leftWord "Total:", rightWord "5.00"]⟩]⟩

def invoiceCandidate : CandidateField := ⟨some "5.00", some 0, some "Total: 5.00"⟩

/-- The words of the page, their letters and digits, and those of the quote. -/
theorem read_invoice : sortedWords ⟨0, [leftWord "Total:", rightWord "5.00"]⟩ = [leftWord "Total:", rightWord "5.00"] ∧
    pageStream asciiTables.toUnicode [leftWord "Total:", rightWord "5.00"] = [("total", 0), ("5", 1), ("00", 1)] ∧
    parts asciiTables.toUnicode "Total: 5.00" = ["total", "5", "00"] := by decide +kernel

theorem quotedTokens_invoice : quotedTokens asciiTables.toGroundingOps [leftWord "Total:", rightWord "5.00"] 0 3 =
    [leftWord "Total:", rightWord "5.00"] := by
  rw [quotedTokens, read_invoice.2.1]
  rfl

theorem quotedBy_invoice : QuotedBy asciiTables "total" invoiceCandidate invoicePage (.decimal ⟨false, 500, -2⟩)
    "Total: 5.00" [leftWord "Total:", rightWord "5.00"] := by
  obtain ⟨hwords, hstream, hparts⟩ := read_invoice
  refine ⟨0, ⟨0, [leftWord "Total:", rightWord "5.00"]⟩, "5.00", 0, 3, rfl, rfl, rfl, by decide +kernel, rfl, by decide,
    ?_, ?_⟩
  · rw [hwords, Located, hstream, hparts]
    exact ⟨by decide, .inl ⟨by decide +kernel, rfl⟩⟩
  · rw [hwords, quotedTokens_invoice]

theorem spelledOnPage_invoice : SpelledOnPage asciiTables "total" invoiceCandidate invoicePage := by
  intro p page quote hp hpage hquote place hplace piece hpiece hvalue
  obtain rfl : 0 = p := Option.some.inj hp
  obtain rfl : (⟨0, [leftWord "Total:", rightWord "5.00"]⟩ : PageText) = page := Option.some.inj hpage
  obtain rfl : "Total: 5.00" = quote := Option.some.inj hquote
  obtain ⟨hwords, hstream, hparts⟩ := read_invoice
  have hspelled : piece = "5.00" := by
    have hamounts : (pieceWindows (quotePieces asciiTables "Total: 5.00")).filter (fun piece =>
        (normalizeSupporting asciiTables.toUnicode (normalizationName "total") piece).any fun value => !value.isText) =
          ["5.00"] := by decide +kernel
    rw [← List.mem_singleton, ← hamounts, List.mem_filter]
    exact ⟨hpiece, hvalue⟩
  have hplaces : quotePlaces asciiTables.toGroundingOps 100 [leftWord "Total:", rightWord "5.00"] "Total: 5.00" =
      [(0, 3), (0, 3)] := by
    rw [quotePlaces, hstream, hparts]
    decide +kernel
  rw [hwords, hplaces, List.mem_pair, or_self] at hplace
  rw [hplace, hspelled, hwords, quotedTokens_invoice]
  have hrun : [rightWord "5.00"] <:+: [leftWord "Total:", rightWord "5.00"] := ⟨[leftWord "Total:"], [], rfl⟩
  have htext : joinTexts [rightWord "5.00"] = "5.00" := by decide +kernel
  refine ⟨[rightWord "5.00"], List.cons_ne_nil _ _, ?_, ?_⟩
  · exact hrun
  · exact htext

def creditPage : DocumentText := ⟨[⟨0, [leftWord "Total", rightWord "-5.00"]⟩]⟩

def creditCandidate : CandidateField := ⟨some "5.00", some 0, some "Total 5.00"⟩

theorem quotedBy_credit : QuotedBy asciiTables "total" creditCandidate creditPage (.decimal ⟨false, 500, -2⟩) "Total 5.00"
    [leftWord "Total", rightWord "-5.00"] := by
  have hwords : sortedWords ⟨0, [leftWord "Total", rightWord "-5.00"]⟩ = [leftWord "Total", rightWord "-5.00"] := by
    decide +kernel
  have hstream : pageStream asciiTables.toUnicode [leftWord "Total", rightWord "-5.00"] =
      [("total", 0), ("5", 1), ("00", 1)] := by decide +kernel
  have hparts : parts asciiTables.toUnicode "Total 5.00" = ["total", "5", "00"] := by decide +kernel
  refine ⟨0, ⟨0, [leftWord "Total", rightWord "-5.00"]⟩, "5.00", 0, 3, rfl, rfl, rfl, by decide +kernel, rfl, by decide,
    ?_, ?_⟩
  · rw [hwords, Located, hstream, hparts]
    exact ⟨by decide, .inl ⟨by decide +kernel, rfl⟩⟩
  · rw [hwords, quotedTokens, hstream]
    rfl

end InvoiceOps
