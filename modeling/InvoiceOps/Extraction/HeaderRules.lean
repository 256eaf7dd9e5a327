import InvoiceOps.Extraction.Candidates
import InvoiceOps.Extraction.Layout
import InvoiceOps.Extraction.PurchaseOrderRows

/-! The header fields of an invoice (`extraction/header_rules.py`). Each line with a label gives a candidate, read after the
label or, when nothing can be read there, from the next line of the page; the candidates of the highest priority decide.
Every value is read from a stretch of a line, with the evidence of that line. -/

namespace InvoiceOps

open Calendar Text

section
open Regex.Pattern

variable (E : TableOps)

def dot : Regex.Pattern := one (· == '.')

def someDigits : Regex.Pattern := plus fun c => (E.digit c).isSome

def numberMark : Regex.Pattern := oneOf [letters "number", seq (letters "no") (opt dot), one (· == '#')]

def invoiceNumberLabel : Regex.Pattern :=
  seq boundary (seq (oneOf [seq (letters "invoice") (seq spaces numberMark),
    seq (letters "inv") (seq (opt dot) (seq spaces numberMark)), seq (letters "bill") (seq spaces numberMark)]) boundary)

def invoiceDateLabel : Regex.Pattern :=
  seq boundary (seq (oneOf [letters "invoice date", letters "bill date", letters "issue date", letters "date of issue"]) boundary)

def excludedDateLabel : Regex.Pattern :=
  seq boundary (seq (oneOf [letters "due", letters "delivery", letters "po"]) (seq blanks (seq (letters "date") boundary)))

def pageNumber : Regex.Pattern :=
  seq (opt (seq (letters "page") spaces)) (seq (someDigits E) (opt (seq blanks (seq (letters "of") (seq blanks (someDigits E))))))

def isoCode : Regex.Pattern := seq boundary (seq (oneOf (currencyCodes.map (word eqIgnoringCase))) boundary)

def currencyName : Regex.Pattern :=
  seq boundary (seq (oneOf [seq (letters "indian rupee") (opt (letters "s")), seq (letters "rupee") (opt (letters "s")),
    seq (letters "euro") (opt (letters "s")), letters "pound sterling", seq (letters "dirham") (opt (letters "s"))]) boundary)

def currencyContext : Regex.Pattern :=
  seq boundary (seq (oneOf [letters "currency", letters "amount due", letters "grand total", letters "total payable",
    letters "invoice total", letters "net payable", seq (letters "sub") (seq spaces (letters "total")), letters "tax",
    letters "gst", letters "igst", letters "cgst", letters "sgst", letters "total"]) boundary)

/-- `\bcurrency\b\s*[:#.-]?\s*` -/
def currencyLabel : Regex.Pattern :=
  seq boundary (seq (letters "currency") (seq boundary (seq spaces (seq (opt (one (· ∈ [':', '#', '.', '-']))) spaces))))

def symbolNumber (symbol : Char) : Regex.Pattern := seq (one (· == symbol)) (seq spaces (one fun c => (E.digit c).isSome))

/-- `(?:AED|…|RS\.?)\s*|[₹€£$]\s*` -/
def moneyMark : Regex.Pattern :=
  alt (seq (oneOf (currencyCodes.map (word eqIgnoringCase) ++ [seq (word eqIgnoringCase "RS") (opt dot)])) spaces)
    (seq (one (· ∈ ['₹', '€', '£', '$'])) spaces)

/-- An amount goes up to the end of the text, a bar or a semicolon. -/
def fragmentEnds (rest : List Char) : Bool := (rest.dropWhile isSpace).head?.all fun c => c == '|' || c == ';'

/-- Where an amount that starts here may stop. The digits are read as few as possible at a time. -/
def moneyEnds (s : Regex.Place) : List Regex.Place :=
  let start := seq (opt (seq (one (· == '(')) spaces)) (seq (opt moneyMark)
    (seq (opt (one (· ∈ ['+', '-']))) (one fun c => (E.digit c).isSome)))
  (Regex.ends E.isWord start s).flatMap fun s =>
    (Regex.manyEnds (fun c => (E.digit c).isSome || c ∈ [' ', ',', '.']) s.1 s.2).reverse.flatMap fun s =>
      (Regex.ends E.isWord (opt (seq spaces (one (· == ')')))) s).filter fun s => fragmentEnds s.2

end

variable (E : TableOps)

/-- `_GSTIN`, of an identifier in capital letters. -/
def isGstin (cs : List Char) : Bool :=
  let letter := fun c : Char => 'A' ≤ c && c ≤ 'Z'
  let places := List.replicate 2 Char.isDigit ++ List.replicate 5 letter ++ List.replicate 4 Char.isDigit ++
    [letter, fun c => c.isDigit || letter c, (· == 'Z'), fun c => c.isDigit || letter c]
  decide (cs.length = places.length) && (List.zipWith (fun p c => p c) places cs).all id

def validIdentifier (value : String) : Bool :=
  let normalized := normalizeIdentifier E value
  decide (2 ≤ normalized.length) && (parseInvoiceDate E.toUnicode value).isNone && (parseMoney value).isNone &&
    !isGstin normalized.toList &&
    !((Regex.ends E.isWord (pageNumber E) (none, (strip value).toList)).any fun s => s.2 = []) &&
    !"PO".toList.isPrefixOf normalized.toList && !"PURCHASEORDER".toList.isPrefixOf normalized.toList

def moneyFragments (cs : List Char) : List (List Char) := Regex.findAll (fun s => (moneyEnds E s).head?) cs

/-- The last amount of a text. -/
def moneyFromText (value : List Char) : Option Decimal :=
  (moneyFragments E (stripBy isSpace value)).reverse.findSome? fun f => parseMoney (String.ofList f)

/-- What stands after the label of a line. -/
def remainder (rest : List Char) : String :=
  normalizeWhitespace (String.ofList (rest.dropWhile fun c => c ∈ [' ', ':', '#', '.', '-']))

def readIdentifier (value : String) : Option String := if validIdentifier E value = true then some value else none

/-- Each line with the next line of its page. -/
def withNext : List TextLine → List (TextLine × Option TextLine)
  | [] => []
  | [line] => [(line, none)]
  | line :: following :: rest =>
    (line, if following.page = line.page then some following else none) :: withNext (following :: rest)

def TextLine.lineEvidence (line : TextLine) : List EvidenceSpan := evidenceFromWords E.toGroundingOps line.words

theorem TextLine.lineEvidence_ne_nil (line : TextLine) : line.lineEvidence E ≠ [] := evidenceFromWords_ne_nil line.nonempty

theorem TextLine.lineEvidence_append_ne_nil (line following : TextLine) : line.lineEvidence E ++ following.lineEvidence E ≠ [] :=
  List.append_ne_nil_of_left_ne_nil (TextLine.lineEvidence_ne_nil E line) _

variable {T : Type}

def sameLine (line : TextLine) (value : T) (ruleId : String) (priority : ℤ) : FieldCandidate T :=
  ⟨value, line.lineEvidence E, ruleId, priority, TextLine.lineEvidence_ne_nil E line⟩

def nextLine (line following : TextLine) (value : T) (ruleId : String) (priority : ℤ) : FieldCandidate T :=
  ⟨value, line.lineEvidence E ++ following.lineEvidence E, ruleId, priority, TextLine.lineEvidence_append_ne_nil E line following⟩

/-- The value after a label, or else on the next line. -/
def labelled (line : TextLine) (following : Option TextLine) (same : Option T) (next : List Char → Option T) (rule : String)
    (priority below : ℤ) : List (FieldCandidate T) :=
  match same with
  | some value => [sameLine E line value (rule ++ ".same_line.v1") priority]
  | none =>
    match following with
    | none => []
    | some f =>
      match next f.text.toList with
      | none => []
      | some value => [nextLine E line f value (rule ++ ".next_line.v1") below]

def numberCandidates (p : TextLine × Option TextLine) : List (FieldCandidate String) :=
  match Regex.search E.isWord invoiceNumberLabel p.1.text.toList with
  | none => []
  | some m =>
    labelled E p.1 p.2 (readIdentifier E (remainder m.2.2))
      (fun text => readIdentifier E (normalizeWhitespace (String.ofList text))) "header.invoice_number" 100 90

def extractInvoiceNumber (lines : List TextLine) : ExtractedField String :=
  resolveCandidates ((withNext lines).flatMap (numberCandidates E)) (normalizeIdentifier E) "header.invoice_number.ambiguous.v1"

def dateCandidates (p : TextLine × Option TextLine) : List (FieldCandidate Date) :=
  if Regex.found E.isWord excludedDateLabel p.1.text.toList = true then []
  else
    match Regex.search E.isWord invoiceDateLabel p.1.text.toList with
    | none => []
    | some m =>
      labelled E p.1 p.2 (parseInvoiceDate E.toUnicode (remainder m.2.2))
        (fun text => parseInvoiceDate E.toUnicode (String.ofList text)) "header.invoice_date" 100 90

def extractInvoiceDate (lines : List TextLine) : ExtractedField Date :=
  resolveCandidates ((withNext lines).flatMap (dateCandidates E)) id "header.invoice_date.ambiguous.v1"

/-- A label at the start of a line. -/
structure MoneyLabel where
  name : String
  pattern : Regex.Pattern
  priority : ℤ

def leading (words : Regex.Pattern) : Regex.Pattern := .seq spaces (.seq words .boundary)

/-- The first label of the list that the line has, and what stands after it. -/
def firstLabel (labels : List MoneyLabel) (line : TextLine) : Option (MoneyLabel × List Char) :=
  labels.findSome? fun label =>
    (Regex.matchAt E.isWord label.pattern (none, line.text.toList)).map fun s => (label, s.2)

def moneyCandidates (fieldName : String) (labels : List MoneyLabel) (exclusions : Option Regex.Pattern)
    (p : TextLine × Option TextLine) : List (FieldCandidate Decimal) :=
  if exclusions.any (fun e => (Regex.matchAt E.isWord e (none, p.1.text.toList)).isSome) = true then []
  else
    match firstLabel E labels p.1 with
    | none => []
    | some (label, rest) =>
      labelled E p.1 p.2 (moneyFromText E rest) (moneyFromText E) ("header." ++ fieldName ++ "." ++ label.name) label.priority
        (label.priority - 1)

def extractLabeledMoney (fieldName : String) (labels : List MoneyLabel) (exclusions : Option Regex.Pattern)
    (lines : List TextLine) : ExtractedField Decimal :=
  resolveCandidates ((withNext lines).flatMap (moneyCandidates E fieldName labels exclusions)) Decimal.toRat
    ("header." ++ fieldName ++ ".ambiguous.v1")

def subTotalWords : Regex.Pattern := .seq (letters "sub") (.seq spaces (letters "total"))

def extractSubtotal : List TextLine → ExtractedField Decimal :=
  extractLabeledMoney E "subtotal"
    [⟨"subtotal", leading subTotalWords, 90⟩, ⟨"taxable_amount", leading (letters "taxable amount"), 80⟩] none

def extractTax : List TextLine → ExtractedField Decimal :=
  extractLabeledMoney E "tax"
    [⟨"tax_total", leading (.alt (letters "tax total") (letters "total tax")), 95⟩,
      ⟨"gst", leading (.alt (letters "gst") (letters "igst")), 90⟩,
      ⟨"split_gst", leading (.alt (letters "cgst") (letters "sgst")), 85⟩] none

def totalExclusions : Regex.Pattern :=
  leading (.oneOf [subTotalWords, letters "tax total", letters "total tax", letters "quantity total", letters "discount total"])

def extractTotal : List TextLine → ExtractedField Decimal :=
  extractLabeledMoney E "total"
    [⟨"amount_due", leading (letters "amount due"), 100⟩, ⟨"grand_total", leading (letters "grand total"), 95⟩,
      ⟨"total_payable", leading (letters "total payable"), 90⟩, ⟨"invoice_total", leading (letters "invoice total"), 85⟩,
      ⟨"net_payable", leading (letters "net payable"), 80⟩, ⟨"total", leading (letters "total"), 50⟩] (some totalExclusions)

/-- `(.*)$`: the rest of the line. -/
def restOfLine (cs : List Char) : Option (List Char) :=
  if cs.dropWhile (· ≠ '\n') = [] ∨ cs.dropWhile (· ≠ '\n') = ['\n'] then some (cs.takeWhile (· ≠ '\n')) else none

/-- What stands after the label of a currency. -/
def currencyRest (text : List Char) : Option (List Char) :=
  (Regex.places none text).findSome? fun s => (Regex.ends E.isWord currencyLabel s).findSome? fun e => restOfLine e.2

def currencyOf (text : List Char) : Option String := normalizeCurrency E.toUnicode (String.ofList text)

/-- The candidate after the label, or on the next line when nothing stands there. -/
def labelledCurrency (line : TextLine) (following : Option TextLine) : List (FieldCandidate String) :=
  match currencyRest E line.text.toList with
  | none => []
  | some rest =>
    match Regex.search E.isWord isoCode rest with
    | some m => ((currencyOf E (Regex.matched m)).map fun value =>
        sameLine E line value "header.currency.label_iso.v1" 120).toList
    | none =>
      if (stripBy isSpace rest) ≠ [] then []
      else
        match following with
        | none => []
        | some f => ((currencyOf E f.text.toList).map fun value =>
            nextLine E line f value "header.currency.label.next_line.v1" 119).toList

/-- The currencies that occur in a line about amounts. -/
def mentionedCurrencies (line : TextLine) (pattern : Regex.Pattern) (ruleId : String) (priority : ℤ) :
    List (FieldCandidate String) :=
  (Regex.findAll (Regex.matchAt E.isWord pattern) line.text.toList).filterMap fun f =>
    (currencyOf E f).map fun value => sameLine E line value ruleId priority

def symbolCurrencies (line : TextLine) : List (FieldCandidate String) :=
  ['₹', '€', '£'].filterMap fun symbol =>
    if Regex.found E.isWord (symbolNumber E symbol) line.text.toList = true then
      (currencyOf E [symbol]).map fun value => sameLine E line value "header.currency.symbol.v1" 60
    else none

def currencyCandidates (p : TextLine × Option TextLine) : List (FieldCandidate String) :=
  labelledCurrency E p.1 p.2 ++
    if Regex.found E.isWord currencyContext p.1.text.toList = true then
      mentionedCurrencies E p.1 isoCode "header.currency.iso_code.v1" 100 ++
        mentionedCurrencies E p.1 currencyName "header.currency.name.v1" 80 ++ symbolCurrencies E p.1
    else []

def extractCurrency (lines : List TextLine) : ExtractedField String :=
  resolveCandidates ((withNext lines).flatMap (currencyCandidates E)) id "header.currency.ambiguous.v1"

/-- `DeterministicInvoiceExtractor.extract` -/
def deterministicExtract (document : DocumentText) : Invoice :=
  let lines := reconstructLines document
  { extractionIssues := []
    invoiceNumber := extractInvoiceNumber E lines
    invoiceDate := extractInvoiceDate E lines
    currency := extractCurrency E lines
    subtotal := extractSubtotal E lines
    tax := extractTax E lines
    total := extractTotal E lines
    lineItems := extractLineItems E document }

/-- A stretch of the line reads as the value. -/
def ReadIn (Reads : List Char → T → Prop) (line : TextLine) (value : T) : Prop :=
  ∃ stretch, stretch <:+: line.text.toList ∧ Reads stretch value

/-- A candidate is read from its line, or from the next one, and has the evidence of the lines it stands on. -/
def FieldCandidate.From (Reads : List Char → T → Prop) (p : TextLine × Option TextLine) (c : FieldCandidate T) : Prop :=
  ReadIn Reads p.1 c.value ∧ c.evidence = p.1.lineEvidence E ∨
    ∃ f, p.2 = some f ∧ ReadIn Reads f c.value ∧ c.evidence = p.1.lineEvidence E ++ f.lineEvidence E

/-- A value is read from a line of the document, which is part of its evidence; the evidence stands for words of lines of the
document; a field is withheld only where two different values are read, be it from one line. -/
structure HeaderBacked {κ : Type} (Reads : List Char → T → Prop) (key : T → κ) (document : DocumentText)
    (field : ExtractedField T) : Prop where
  read : ∀ v, field.value = some v → ∃ p ∈ withNext (reconstructLines document), ∃ c : FieldCandidate T,
    c.From E Reads p ∧ c.value = v ∧ c.evidence ⊆ field.evidence
  evidence : ∀ span ∈ field.evidence, ∃ line ∈ reconstructLines document, ∃ words, words ⊆ line.words ∧ span.Covers words
  withheld : field.status = .ambiguous → ∃ p ∈ withNext (reconstructLines document),
    ∃ p' ∈ withNext (reconstructLines document), ∃ c d : FieldCandidate T,
      c.From E Reads p ∧ d.From E Reads p' ∧ key c.value ≠ key d.value

section

variable {E} {κ : Type} [DecidableEq κ] {Reads : List Char → T → Prop} {key : T → κ} {lines : List TextLine}
  {p : TextLine × Option TextLine} {line : TextLine}

theorem mem_withNext (h : p ∈ withNext lines) : p.1 ∈ lines ∧ ∀ f, p.2 = some f → f ∈ lines ∧ f.page = p.1.page := by
  induction lines using withNext.induct with
  | case1 => cases h
  | case2 line =>
    obtain rfl := List.mem_singleton.1 h
    exact ⟨List.mem_singleton_self _, fun f hf => nomatch hf⟩
  | case3 line following rest ih =>
    rcases List.mem_cons.1 h with rfl | h
    · refine ⟨List.mem_cons_self .., fun f hf => ?_⟩
      dsimp only at hf
      split_ifs at hf with hpage
      obtain rfl := Option.some.inj hf
      exact ⟨List.mem_cons_of_mem _ (List.mem_cons_self ..), hpage⟩
    · obtain ⟨hmem, hnext⟩ := ih h
      exact ⟨List.mem_cons_of_mem _ hmem, fun f hf => ⟨List.mem_cons_of_mem _ (hnext f hf).1, (hnext f hf).2⟩⟩

omit [DecidableEq κ] in
theorem covers_lineEvidence {span : EvidenceSpan} (h : span ∈ line.lineEvidence E) :
    ∃ words, words ⊆ line.words ∧ span.Covers words := by
  obtain ⟨groups, hperm, hcovers⟩ := evidenceCovers_evidenceFromWords E.toGroundingOps line.words
  obtain ⟨words, hwords, hspan⟩ := Lists.exists_of_forall₂_mem (List.Forall₂.flip hcovers) h
  exact ⟨words, fun w hw => hperm.mem_iff.1 (List.mem_flatten.2 ⟨words, hwords, hw⟩), hspan⟩

/-- The value of a resolved field is that of a candidate that counts. -/
theorem resolveCandidates_value {candidates : List (FieldCandidate T)} {rule : String} {v : T}
    (h : (resolveCandidates candidates key rule).value = some v) : ∃ c ∈ topCandidates candidates, c.value = v := by
  unfold resolveCandidates at h
  split_ifs at h
  dsimp only at h
  split at h
  · rename_i g c rest hg htop
    exact ⟨c, htop ▸ List.mem_cons_self .., Option.some.inj h⟩
  · cases h

theorem headerBacked {candidates : TextLine × Option TextLine → List (FieldCandidate T)} (rule : String)
    (document : DocumentText) (hfrom : ∀ p, ∀ c ∈ candidates p, c.From E Reads p) :
    HeaderBacked E Reads key document
      (resolveCandidates ((withNext (reconstructLines document)).flatMap candidates) key rule) := by
  have horigin : ∀ c ∈ topCandidates ((withNext (reconstructLines document)).flatMap candidates),
      ∃ p ∈ withNext (reconstructLines document), c.From E Reads p := by
    intro c hc
    obtain ⟨p, hp, hc⟩ := List.mem_flatMap.1 (mem_topCandidates.1 hc).1
    exact ⟨p, hp, hfrom p c hc⟩
  have hresolved := resolved ((withNext (reconstructLines document)).flatMap candidates) key rule
  refine ⟨fun v hv => ?_, fun span hspan => ?_, fun hstatus => ?_⟩
  · obtain ⟨c, hc, rfl⟩ := resolveCandidates_value hv
    obtain ⟨p, hp, hfrom⟩ := horigin c hc
    exact ⟨p, hp, c, hfrom, rfl, fun span hspan => (hresolved.evidence span).2 ⟨c, hc, hspan⟩⟩
  · obtain ⟨c, hc, hspan⟩ := (hresolved.evidence span).1 hspan
    obtain ⟨p, hp, ⟨-, hevidence⟩ | ⟨f, hf, -, hevidence⟩⟩ := horigin c hc
    · exact ⟨p.1, (mem_withNext hp).1, covers_lineEvidence (hevidence ▸ hspan)⟩
    · rcases List.mem_append.1 (hevidence ▸ hspan) with hspan | hspan
      · exact ⟨p.1, (mem_withNext hp).1, covers_lineEvidence hspan⟩
      · exact ⟨f, ((mem_withNext hp).2 f hf).1, covers_lineEvidence hspan⟩
  · have hagree : ¬KeysAgree key ((withNext (reconstructLines document)).flatMap candidates) := by
      intro hagree
      by_cases hnil : (withNext (reconstructLines document)).flatMap candidates = []
      · rw [hresolved.missing hnil] at hstatus
        cases hstatus
      · rw [hresolved.extracted hnil hagree] at hstatus
        cases hstatus
    simp only [KeysAgree, not_forall] at hagree
    obtain ⟨c, hc, d, hd, hne⟩ := hagree
    obtain ⟨p, hp, hfrom⟩ := horigin c hc
    obtain ⟨p', hp', hfrom'⟩ := horigin d hd
    exact ⟨p, hp, p', hp', c, d, hfrom, hfrom', hne⟩

/-- A labelled value is read after its label, or from the next line. -/
theorem labelled_from {same : Option T} {next : List Char → Option T} {rule : String} {priority below : ℤ}
    (hsame : ∀ v, same = some v → ReadIn Reads p.1 v)
    (hnext : ∀ text v, next text = some v → ∃ stretch, stretch <:+: text ∧ Reads stretch v)
    (c : FieldCandidate T) (hc : c ∈ labelled E p.1 p.2 same next rule priority below) : c.From E Reads p := by
  unfold labelled at hc
  split at hc
  · obtain rfl := List.mem_singleton.1 hc
    exact .inl ⟨hsame _ rfl, rfl⟩
  · split at hc
    · cases hc
    · rename_i f hf
      split at hc
      · cases hc
      · rename_i v hv
        obtain rfl := List.mem_singleton.1 hc
        exact .inr ⟨f, hf, hnext _ v hv, rfl⟩

end

def ReadsIdentifier (stretch : List Char) (value : String) : Prop :=
  value = normalizeWhitespace (String.ofList stretch) ∧ validIdentifier E value = true

def ReadsDate (stretch : List Char) (value : Date) : Prop :=
  parseInvoiceDate E.toUnicode (String.ofList stretch) = some value ∨
    parseInvoiceDate E.toUnicode (normalizeWhitespace (String.ofList stretch)) = some value

def ReadsMoney (stretch : List Char) (value : Decimal) : Prop := parseMoney (String.ofList stretch) = some value

def ReadsCurrency (stretch : List Char) (value : String) : Prop := currencyOf E stretch = some value

variable {E} {p : TextLine × Option TextLine}

theorem readIdentifier_eq {value v : String} (h : readIdentifier E value = some v) : v = value ∧ validIdentifier E v = true := by
  unfold readIdentifier at h
  split_ifs at h with hvalid
  obtain rfl := Option.some.inj h
  exact ⟨rfl, hvalid⟩

/-- What stands after a label is a stretch of the line. -/
theorem infix_after {pattern : Regex.Pattern} {text : List Char} {m : Regex.Place × Regex.Place}
    (h : Regex.search E.isWord pattern text = some m) (p : Char → Bool) : m.2.2.dropWhile p <:+: text := by
  obtain ⟨hstart, hstop⟩ := Regex.search_suffix h
  exact ((List.dropWhile_suffix p).trans (hstop.trans hstart)).isInfix

theorem numberCandidates_from (c : FieldCandidate String) (hc : c ∈ numberCandidates E p) :
    c.From E (ReadsIdentifier E) p := by
  unfold numberCandidates at hc
  split at hc
  · cases hc
  · rename_i m hm
    refine labelled_from (fun v hv => ?_) (fun text v hv => ?_) c hc
    · obtain ⟨rfl, hvalid⟩ := readIdentifier_eq hv
      exact ⟨_, infix_after hm _, rfl, hvalid⟩
    · obtain ⟨rfl, hvalid⟩ := readIdentifier_eq hv
      exact ⟨text, List.infix_rfl, rfl, hvalid⟩

theorem dateCandidates_from (c : FieldCandidate Date) (hc : c ∈ dateCandidates E p) : c.From E (ReadsDate E) p := by
  unfold dateCandidates at hc
  split_ifs at hc
  · cases hc
  · split at hc
    · cases hc
    · rename_i m hm
      refine labelled_from (fun v hv => ?_) (fun text v hv => ⟨text, List.infix_rfl, .inl hv⟩) c hc
      exact ⟨_, infix_after hm _, .inr hv⟩

/-- An amount is read from a fragment of the text. -/
theorem moneyFromText_reads {text : List Char} {v : Decimal} (h : moneyFromText E text = some v) :
    ∃ stretch, stretch <:+: text ∧ ReadsMoney stretch v := by
  obtain ⟨f, hf, hv⟩ := List.exists_of_findSome?_eq_some h
  exact ⟨f, (Regex.findAll_infix (List.mem_reverse.1 hf)).trans ( stripBy_infix isSpace text), hv⟩

theorem moneyCandidates_from {fieldName : String} {labels : List MoneyLabel} {exclusions : Option Regex.Pattern}
    (c : FieldCandidate Decimal) (hc : c ∈ moneyCandidates E fieldName labels exclusions p) : c.From E ReadsMoney p := by
  unfold moneyCandidates at hc
  split_ifs at hc
  · cases hc
  · split at hc
    · cases hc
    · rename_i label rest hlabel
      obtain ⟨l, -, hl⟩ := List.exists_of_findSome?_eq_some hlabel
      obtain ⟨s, hs, heq⟩ := Option.map_eq_some_iff.1 hl
      obtain ⟨-, rfl⟩ := Prod.mk.inj heq
      refine labelled_from (fun v hv => ?_) (fun text v hv => moneyFromText_reads hv) c hc
      obtain ⟨stretch, hstretch, hreads⟩ := moneyFromText_reads hv
      exact ⟨stretch, hstretch.trans (Regex.matchAt_suffix hs).isInfix, hreads⟩

theorem sameLine_from {Reads : List Char → T → Prop} {value : T} {ruleId : String} {priority : ℤ}
    (h : ReadIn Reads p.1 value) : (sameLine E p.1 value ruleId priority).From E Reads p :=
  .inl ⟨h, rfl⟩

theorem matched_isInfix {pattern : Regex.Pattern} {text : List Char} {m : Regex.Place × Regex.Place}
    (h : Regex.search E.isWord pattern text = some m) : Regex.matched m <:+: text :=
  (Regex.matched_isPrefix m).isInfix.trans (Regex.search_suffix h).1.isInfix

theorem currencyRest_isInfix {text rest : List Char} (h : currencyRest E text = some rest) : rest <:+: text := by
  obtain ⟨s, hs, h⟩ := List.exists_of_findSome?_eq_some h
  obtain ⟨e, he, h⟩ := List.exists_of_findSome?_eq_some h
  unfold restOfLine at h
  split_ifs at h
  obtain rfl := Option.some.inj h
  exact (List.takeWhile_prefix _).isInfix.trans ((Regex.ends_suffix he).trans (Regex.mem_places hs)).isInfix

theorem labelledCurrency_from (c : FieldCandidate String) (hc : c ∈ labelledCurrency E p.1 p.2) :
    c.From E (ReadsCurrency E) p := by
  unfold labelledCurrency at hc
  split at hc
  · cases hc
  · rename_i rest hrest
    split at hc
    · rename_i m hm
      obtain ⟨v, hv, rfl⟩ := Option.map_eq_some_iff.1 (Option.mem_toList.1 hc)
      exact sameLine_from ⟨_, (matched_isInfix hm).trans (currencyRest_isInfix hrest), hv⟩
    · split_ifs at hc
      · cases hc
      · split at hc
        · cases hc
        · rename_i f hf
          obtain ⟨v, hv, rfl⟩ := Option.map_eq_some_iff.1 (Option.mem_toList.1 hc)
          exact .inr ⟨f, hf, ⟨_, List.infix_rfl, hv⟩, rfl⟩

theorem mentionedCurrencies_from {pattern : Regex.Pattern} {ruleId : String} {priority : ℤ} (c : FieldCandidate String)
    (hc : c ∈ mentionedCurrencies E p.1 pattern ruleId priority) : c.From E (ReadsCurrency E) p := by
  obtain ⟨f, hf, hc⟩ := List.mem_filterMap.1 hc
  obtain ⟨v, hv, rfl⟩ := Option.map_eq_some_iff.1 hc
  exact sameLine_from ⟨f, Regex.findAll_infix hf, hv⟩

/-- A symbol before a number stands in the line. -/
theorem symbol_isInfix {symbol : Char} {text : List Char} (h : Regex.found E.isWord (symbolNumber E symbol) text = true) :
    [symbol] <:+: text := by
  obtain ⟨s, hs, hm⟩ := List.any_eq_true.1 h
  obtain ⟨e, he⟩ := Option.isSome_iff_exists.1 hm
  obtain ⟨s', hs', -⟩ := List.mem_flatMap.1 (List.mem_of_mem_head? he)
  obtain ⟨before, cs⟩ := s
  cases cs with
  | nil => cases hs'
  | cons c cs =>
    simp only [Regex.ends] at hs'
    split_ifs at hs' with hsymbol
    · obtain rfl := eq_of_beq hsymbol
      exact (List.prefix_append [c] cs).isInfix.trans (Regex.mem_places hs).isInfix
    · cases hs'

theorem symbolCurrencies_from (c : FieldCandidate String) (hc : c ∈ symbolCurrencies E p.1) :
    c.From E (ReadsCurrency E) p := by
  obtain ⟨symbol, -, hc⟩ := List.mem_filterMap.1 hc
  split_ifs at hc with hfound
  obtain ⟨v, hv, rfl⟩ := Option.map_eq_some_iff.1 hc
  exact sameLine_from ⟨[symbol], symbol_isInfix hfound, hv⟩

theorem currencyCandidates_from (c : FieldCandidate String) (hc : c ∈ currencyCandidates E p) :
    c.From E (ReadsCurrency E) p := by
  rcases List.mem_append.1 hc with hc | hc
  · exact labelledCurrency_from c hc
  · split_ifs at hc
    · rcases List.mem_append.1 hc with hc | hc
      · rcases List.mem_append.1 hc with hc | hc
        · exact mentionedCurrencies_from c hc
        · exact mentionedCurrencies_from c hc
      · exact symbolCurrencies_from c hc
    · cases hc

theorem labeledMoney_backed (fieldName : String) (labels : List MoneyLabel) (exclusions : Option Regex.Pattern)
    (document : DocumentText) : HeaderBacked E ReadsMoney Decimal.toRat document
      (extractLabeledMoney E fieldName labels exclusions (reconstructLines document)) :=
  headerBacked _ document fun _ => moneyCandidates_from

/-- Every header field of the deterministic extractor is read from the document: its value from a stretch of a line with a
label or of the line below, its evidence from the words of such lines, and it is ambiguous only where two readings,
possibly of one line, differ. -/
theorem header_backed (E : TableOps) (document : DocumentText) :
    HeaderBacked E (ReadsIdentifier E) (normalizeIdentifier E) document (deterministicExtract E document).invoiceNumber ∧
    HeaderBacked E (ReadsDate E) id document (deterministicExtract E document).invoiceDate ∧
    HeaderBacked E (ReadsCurrency E) id document (deterministicExtract E document).currency ∧
    HeaderBacked E ReadsMoney Decimal.toRat document (deterministicExtract E document).subtotal ∧
    HeaderBacked E ReadsMoney Decimal.toRat document (deterministicExtract E document).tax ∧
    HeaderBacked E ReadsMoney Decimal.toRat document (deterministicExtract E document).total := by
  simp only [deterministicExtract, extractInvoiceNumber, extractInvoiceDate, extractCurrency, extractSubtotal, extractTax,
    extractTotal]
  refine ⟨?_, ?_, ?_, labeledMoney_backed .., labeledMoney_backed .., labeledMoney_backed ..⟩
  · exact headerBacked "header.invoice_number.ambiguous.v1" document fun _ => numberCandidates_from
  · exact headerBacked "header.invoice_date.ambiguous.v1" document fun _ => dateCandidates_from
  · exact headerBacked "header.currency.ambiguous.v1" document fun _ => currencyCandidates_from

end InvoiceOps
