import InvoiceOps.Extraction.Grounding
import Mathlib.Data.Finset.Disjoint

/-! Fusion of the deterministic invoice with the vision model's candidate (`extraction/hybrid/row_association.py`,
`extraction/hybrid/fusion.py`). A candidate row is associated with a line by the words its description is printed
with, never by its place in the candidate; the fields of associated rows and of the header are then fused one by
one. The model can fill a field that was not extracted, with a value that is printed, and it can make an extracted
field ambiguous; it can do nothing else. -/

namespace InvoiceOps

open Calendar Lists

structure CandidateLineItem where
  description : CandidateField
  quantity : CandidateField
  unitPrice : CandidateField
  lineTotal : CandidateField
deriving DecidableEq, Repr

structure VisionInvoiceCandidate where
  invoiceNumber : CandidateField
  invoiceDate : CandidateField
  currency : CandidateField
  subtotal : CandidateField
  tax : CandidateField
  total : CandidateField
  lineItems : List CandidateLineItem
deriving DecidableEq, Repr

/-- What the association reads of a cell. -/
structure Cell where
  grounded : Bool
  evidence : List EvidenceSpan
deriving DecidableEq, Repr

def GroundingResult.cell {T : Type} (g : GroundingResult T) : Cell := ⟨g.grounded, g.evidence⟩

/-- The cells a candidate row claims, grounded. -/
structure GroundedRow where
  description : Option (GroundingResult String)
  quantity : Option (GroundingResult Decimal)
  unitPrice : Option (GroundingResult Decimal)
  lineTotal : Option (GroundingResult Decimal)
deriving DecidableEq, Repr

def GroundedRow.cells (row : GroundedRow) : List Cell :=
  [row.description.map (·.cell), row.quantity.map (·.cell), row.unitPrice.map (·.cell),
    row.lineTotal.map (·.cell)].reduceOption

/-- A field without a raw value is not claimed. -/
def groundClaim {T : Type} (E : GroundingOps) (threshold : ℚ) (kind : FieldKind T) (field : CandidateField)
    (document : DocumentText) : Option (GroundingResult T) :=
  if field.rawValue.isSome then some (groundCandidate E threshold kind field document) else none

def groundRow (E : GroundingOps) (threshold : ℚ) (document : DocumentText) (row : CandidateLineItem) :
    GroundedRow where
  description := groundClaim E threshold (textField "description") row.description document
  quantity := groundClaim E threshold (moneyField "quantity") row.quantity document
  unitPrice := groundClaim E threshold (moneyField "unit_price") row.unitPrice document
  lineTotal := groundClaim E threshold (moneyField "line_total") row.lineTotal document

/-- The words whose middle lies in a span of their page and source, as page number and position. -/
def tokens (E : GroundingOps) (spans : List EvidenceSpan) (document : DocumentText) : Finset (ℕ × ℕ) :=
  (document.pages.flatMap fun page =>
    (page.words.zipIdx.filter fun word => spans.any fun span =>
      decide (span.page = page.page ∧ page.page = word.1.page ∧ word.1.source = span.source ∧
        span.bbox.x0 ≤ E.floatMid word.1.bbox.x0 word.1.bbox.x1 ∧
        E.floatMid word.1.bbox.x0 word.1.bbox.x1 ≤ span.bbox.x1 ∧
        span.bbox.y0 ≤ E.floatMid word.1.bbox.y0 word.1.bbox.y1 ∧
        E.floatMid word.1.bbox.y0 word.1.bbox.y1 ≤ span.bbox.y1)).map fun word => (page.page, word.2)).toFinset

def overlap (a b : EvidenceSpan) : Bool :=
  decide (a.page = b.page ∧ max a.bbox.y0 b.bbox.y0 < min a.bbox.y1 b.bbox.y1)

inductive RowReason
  | anchorMissing
  | cellUngrounded
  | incoherentGeometry
  | crossRowCells
  | reusedEvidence
  | ambiguousAnchor
  | candidateOnly
  | associated
deriving DecidableEq, Repr

def RowReason.value : RowReason → String
  | .anchorMissing => "anchor_missing"
  | .cellUngrounded => "cell_ungrounded"
  | .incoherentGeometry => "incoherent_geometry"
  | .crossRowCells => "cross_row_cells"
  | .reusedEvidence => "reused_evidence"
  | .ambiguousAnchor => "ambiguous_anchor"
  | .candidateOnly => "candidate_only"
  | .associated => "associated"

/-- What the first pass makes of one row. -/
inductive RowOutcome
  | rejected (reason : RowReason)
  | proposed (line : ℕ)
deriving DecidableEq, Repr

def rowTokens (E : GroundingOps) (document : DocumentText) (row : GroundedRow) : Finset (ℕ × ℕ) :=
  (row.cells.map fun cell => tokens E cell.evidence document).foldr (· ∪ ·) ∅

/-- In how many rows a word is used. -/
def usage (E : GroundingOps) (document : DocumentText) (rows : List GroundedRow) (token : ℕ × ℕ) : ℕ :=
  rows.countP fun row => token ∈ rowTokens E document row

/-- The double nearest to 0.06. -/
def maxRowHeight : ℚ := 1080863910568919 / 18014398509481984

def greatest (default : ℚ) : List ℚ → ℚ
  | [] => default
  | y :: ys => ys.foldl max y

def least (default : ℚ) : List ℚ → ℚ
  | [] => default
  | y :: ys => ys.foldl min y

def incoherentGeometry (E : GroundingOps) (spans allSpans : List EvidenceSpan) : Bool :=
  decide ((allSpans.map (·.page)).dedup.length ≠ 1 ∨ spans = [] ∨
    maxRowHeight < E.floatSub (greatest 1 (allSpans.map (·.bbox.y1))) (least 0 (allSpans.map (·.bbox.y0))))

/-- The lines whose description shares a word with the anchor. -/
def anchorMatches (E : GroundingOps) (document : DocumentText) (deterministic : List InvoiceLine)
    (spans : List EvidenceSpan) : List ℕ :=
  (deterministic.zipIdx.filter fun line =>
    decide (¬ Disjoint (tokens E spans document) (tokens E line.1.description.evidence document))).map (·.2)

/-- The lines whose description overlaps the anchor vertically. -/
def spatialMatches (deterministic : List InvoiceLine) (spans : List EvidenceSpan) : List ℕ :=
  (deterministic.zipIdx.filter fun line =>
    spans.any fun a => line.1.description.evidence.any fun b => overlap a b).map (·.2)

/-- Some cell overlaps the description of a line the anchor does not match. -/
def otherRowsTouched (deterministic : List InvoiceLine) (lines : List ℕ) (allSpans : List EvidenceSpan) : Bool :=
  deterministic.zipIdx.any fun line =>
    decide (line.2 ∉ lines) && line.1.description.evidence.any fun anchor => allSpans.any fun cell => overlap cell anchor

/-- One turn of the loop over the rows; `used` counts the rows a word is used in. -/
def rowOutcome (E : GroundingOps) (document : DocumentText) (deterministic : List InvoiceLine)
    (used : ℕ × ℕ → ℕ) (row : GroundedRow) : RowOutcome :=
  match row.description with
  | none => .rejected .anchorMissing
  | some description =>
    let spans := description.evidence
    let allSpans := row.cells.flatMap (·.evidence)
    let cellSets := row.cells.map fun cell => tokens E cell.evidence document
    let lines := anchorMatches E document deterministic spans
    if description.grounded = false then .rejected .anchorMissing
    else if row.cells.any fun cell => !cell.grounded then .rejected .cellUngrounded
    else if incoherentGeometry E spans allSpans then .rejected .incoherentGeometry
    else if allSpans.any fun span => !spans.any fun anchor => overlap span anchor then .rejected .crossRowCells
    else if ∃ token ∈ rowTokens E document row, 1 < used token then .rejected .reusedEvidence
    else if ¬ cellSets.Pairwise Disjoint then .rejected .reusedEvidence
    else
      match lines with
      | [] => .rejected .candidateOnly
      | [line] =>
        if spatialMatches deterministic spans = [line] ∧ otherRowsTouched deterministic [line] allSpans = false then
          .proposed line
        else .rejected .ambiguousAnchor
      | _ :: _ :: _ => .rejected .ambiguousAnchor

def rowOutcomes (E : GroundingOps) (document : DocumentText) (deterministic : List InvoiceLine)
    (rows : List GroundedRow) : List RowOutcome :=
  rows.map (rowOutcome E document deterministic (usage E document rows))

/-- A proposal stands when no other row proposes the same line. -/
def association (outcomes : List RowOutcome) (row : RowOutcome × ℕ) : Option (ℕ × ℕ) :=
  match row.1 with
  | .rejected _ => none
  | .proposed line => if outcomes.count (.proposed line) = 1 then some (line, row.2) else none

def rowReason (outcomes : List RowOutcome) : RowOutcome → RowReason
  | .rejected reason => reason
  | .proposed line => if outcomes.count (.proposed line) = 1 then .associated else .ambiguousAnchor

/-- `associate_rows`: the associated lines, each with its candidate row, and the reason of every candidate row. -/
def associateRows (E : GroundingOps) (deterministic : List InvoiceLine) (rows : List GroundedRow)
    (document : DocumentText) : List (ℕ × ℕ) × List RowReason :=
  let outcomes := rowOutcomes E document deterministic rows
  (outcomes.zipIdx.filterMap (association outcomes), outcomes.map (rowReason outcomes))

inductive FusionOutcome
  | deterministicOnly
  | agreement
  | vlmFilled
  | disagreementAbstained
  | ungroundedRejected
deriving DecidableEq, Repr

/-- A fused field with its outcome, and the grounding reason where the candidate claimed it. -/
structure FieldFusion (T : Type) where
  name : String
  field : ExtractedField T
  outcome : FusionOutcome
  reason : Option GroundingReason
deriving DecidableEq, Repr

variable {T : Type}

def abstainedField (deterministic : ExtractedField T) (evidence : List EvidenceSpan) : ExtractedField T where
  value := none
  status := .ambiguous
  evidence := deterministic.evidence ++ evidence
  ruleId := some "fusion.invoice-vision-v1.disagreement"
  extracted_contract h := by cases h
  missing_contract := ExtractedField.ambiguous_missing T

theorem extracted_not_missing (value : T) (h : ExtractionStatus.extracted = .missing) : some value = none := by cases h

def filledField (value : T) (evidence : List EvidenceSpan) (h : evidence ≠ []) : ExtractedField T where
  value := some value
  status := .extracted
  evidence := evidence
  ruleId := some "vlm.invoice-vision-v1.grounded"
  extracted_contract _ := ⟨rfl, h⟩
  missing_contract := extracted_not_missing value

def fuseField (kind : FieldKind T) (deterministic : ExtractedField T) (g : GroundingResult T) : FieldFusion T :=
  match g.normalizedValue with
  | none => ⟨kind.name, deterministic, .ungroundedRejected, some g.reason⟩
  | some value =>
    if hg : g.grounded = true then
      if deterministic.status = .extracted then
        if deterministic.value.any fun v => kind.same v value then ⟨kind.name, deterministic, .agreement, some g.reason⟩
        else ⟨kind.name, abstainedField deterministic g.evidence, .disagreementAbstained, some g.reason⟩
      else ⟨kind.name, filledField value g.evidence (g.contract hg).2, .vlmFilled, some g.reason⟩
    else ⟨kind.name, deterministic, .ungroundedRejected, some g.reason⟩

/-- A field the candidate does not claim is kept. -/
def fuseClaim (kind : FieldKind T) (deterministic : ExtractedField T) : Option (GroundingResult T) → FieldFusion T
  | none => ⟨kind.name, deterministic, .deterministicOnly, none⟩
  | some g => fuseField kind deterministic g

structure LineFusion where
  description : FieldFusion String
  quantity : FieldFusion Decimal
  unitPrice : FieldFusion Decimal
  lineTotal : FieldFusion Decimal
deriving DecidableEq, Repr

/-- The fields of a line, with the row associated with it. -/
def fuseLine (line : InvoiceLine) (row : Option GroundedRow) : LineFusion where
  description := fuseClaim (textField "description") line.description (row.bind (·.description))
  quantity := fuseClaim (moneyField "quantity") line.quantity (row.bind (·.quantity))
  unitPrice := fuseClaim (moneyField "unit_price") line.unitPrice (row.bind (·.unitPrice))
  lineTotal := fuseClaim (moneyField "line_total") line.lineTotal (row.bind (·.lineTotal))

def LineFusion.line (f : LineFusion) : InvoiceLine :=
  ⟨f.description.field, f.quantity.field, f.unitPrice.field, f.lineTotal.field⟩

structure HeaderFusion where
  invoiceNumber : FieldFusion String
  invoiceDate : FieldFusion Date
  currency : FieldFusion String
  subtotal : FieldFusion Decimal
  tax : FieldFusion Decimal
  total : FieldFusion Decimal
deriving DecidableEq, Repr

def fuseHeader (E : GroundingOps) (threshold : ℚ) (deterministic : Invoice) (candidate : VisionInvoiceCandidate)
    (document : DocumentText) : HeaderFusion where
  invoiceNumber := fuseClaim (textField "invoice_number") deterministic.invoiceNumber
    (groundClaim E threshold (textField "invoice_number") candidate.invoiceNumber document)
  invoiceDate := fuseClaim (dateField E.toUnicode) deterministic.invoiceDate
    (groundClaim E threshold (dateField E.toUnicode) candidate.invoiceDate document)
  currency := fuseClaim (currencyField E.toUnicode) deterministic.currency
    (groundClaim E threshold (currencyField E.toUnicode) candidate.currency document)
  subtotal := fuseClaim (moneyField "subtotal") deterministic.subtotal
    (groundClaim E threshold (moneyField "subtotal") candidate.subtotal document)
  tax := fuseClaim (moneyField "tax") deterministic.tax
    (groundClaim E threshold (moneyField "tax") candidate.tax document)
  total := fuseClaim (moneyField "total") deterministic.total
    (groundClaim E threshold (moneyField "total") candidate.total document)

/-- The entries of a field under a path. -/
def FieldFusion.outcomeAt (path : String) (f : FieldFusion T) : String × FusionOutcome := (path ++ f.name, f.outcome)

def FieldFusion.groundingAt (path : String) (f : FieldFusion T) : List (String × String) :=
  (f.reason.map fun reason => (path ++ f.name, reason.value)).toList

def HeaderFusion.outcomes (f : HeaderFusion) : List (String × FusionOutcome) :=
  [f.invoiceNumber.outcomeAt "", f.invoiceDate.outcomeAt "", f.currency.outcomeAt "", f.subtotal.outcomeAt "",
    f.tax.outcomeAt "", f.total.outcomeAt ""]

def HeaderFusion.grounding (f : HeaderFusion) : List (String × String) :=
  [f.invoiceNumber.groundingAt "", f.invoiceDate.groundingAt "", f.currency.groundingAt "", f.subtotal.groundingAt "",
    f.tax.groundingAt "", f.total.groundingAt ""].flatten

def linePath (index : ℕ) : String := "line_items." ++ toString index ++ "."

def LineFusion.outcomes (index : ℕ) (f : LineFusion) : List (String × FusionOutcome) :=
  [f.description.outcomeAt (linePath index), f.quantity.outcomeAt (linePath index),
    f.unitPrice.outcomeAt (linePath index), f.lineTotal.outcomeAt (linePath index)]

def LineFusion.grounding (index : ℕ) (f : LineFusion) : List (String × String) :=
  [f.description.groundingAt (linePath index), f.quantity.groundingAt (linePath index),
    f.unitPrice.groundingAt (linePath index), f.lineTotal.groundingAt (linePath index)].flatten

/-- The diagnostics of one candidate row. -/
def candidateRowGrounding (index : ℕ) (reason : RowReason) (row : GroundedRow) : List (String × String) :=
  let path := "candidate_rows." ++ toString index
  (path, reason.value) ::
    [row.description.map fun g => (path ++ ".description", g.reason.value),
      row.quantity.map fun g => (path ++ ".quantity", g.reason.value),
      row.unitPrice.map fun g => (path ++ ".unit_price", g.reason.value),
      row.lineTotal.map fun g => (path ++ ".line_total", g.reason.value)].reduceOption

structure FusionResult where
  invoice : Invoice
  outcomes : List (String × FusionOutcome)
  grounding : List (String × String)
  rowAssociations : List (ℕ × ℕ)
deriving DecidableEq, Repr

def candidateRows (E : GroundingOps) (threshold : ℚ) (candidate : VisionInvoiceCandidate) (document : DocumentText) :
    List GroundedRow :=
  candidate.lineItems.map (groundRow E threshold document)

/-- The row associated with a line. -/
def associatedRow (associations : List (ℕ × ℕ)) (rows : List GroundedRow) (index : ℕ) : Option GroundedRow :=
  (associations.find? fun a => a.1 = index).bind fun a => rows[a.2]?

/-- An unresolved association is reported once. -/
def fusedIssues (deterministic : Invoice) (associations : List (ℕ × ℕ)) (reasons : List RowReason) :
    List ExtractionIssue :=
  if ((∃ reason ∈ reasons, reason ≠ .associated) ∨
      deterministic.lineItems ≠ [] ∧ associations.length ≠ deterministic.lineItems.length) ∧
    .hybridRowAssociationUnresolved ∉ deterministic.extractionIssues then
    deterministic.extractionIssues ++ [.hybridRowAssociationUnresolved]
  else deterministic.extractionIssues

/-- The lines of the invoice in their order, each fused with its row. -/
def fuseLines (deterministic : List InvoiceLine) (associations : List (ℕ × ℕ)) (rows : List GroundedRow) :
    List (LineFusion × ℕ) :=
  deterministic.zipIdx.map fun line => (fuseLine line.1 (associatedRow associations rows line.2), line.2)

def fuseInvoice (E : GroundingOps) (threshold : ℚ) (deterministic : Invoice) (candidate : VisionInvoiceCandidate)
    (document : DocumentText) : FusionResult :=
  let header := fuseHeader E threshold deterministic candidate document
  let rows := candidateRows E threshold candidate document
  let associated := associateRows E deterministic.lineItems rows document
  let lines := fuseLines deterministic.lineItems associated.1 rows
  { invoice :=
      { extractionIssues := fusedIssues deterministic associated.1 associated.2
        invoiceNumber := header.invoiceNumber.field
        invoiceDate := header.invoiceDate.field
        currency := header.currency.field
        subtotal := header.subtotal.field
        tax := header.tax.field
        total := header.total.field
        lineItems := lines.map fun f => f.1.line }
    outcomes := header.outcomes ++ lines.flatMap fun f => f.1.outcomes f.2
    grounding := header.grounding ++
      ((associated.2.zip rows).zipIdx.flatMap fun r => candidateRowGrounding r.2 r.1.1 r.1.2) ++
      lines.flatMap fun f => f.1.grounding f.2
    rowAssociations := associated.1 }

variable {E : GroundingOps} {threshold : ℚ}

/-- The row at `candidate` proposes the line, and no other row does. -/
def UniquelyAssociated (outcomes : List RowOutcome) (line candidate : ℕ) : Prop :=
  outcomes[candidate]? = some (.proposed line) ∧ ∀ other, outcomes[other]? = some (.proposed line) → other = candidate

theorem association_eq_some {outcomes : List RowOutcome} {row : RowOutcome × ℕ} {a : ℕ × ℕ} :
    association outcomes row = some a ↔
      row = (.proposed a.1, a.2) ∧ outcomes.count (.proposed a.1) = 1 := by
  obtain ⟨outcome, i⟩ := row
  obtain ⟨line, c⟩ := a
  cases outcome with
  | rejected reason => simp [association]
  | proposed l =>
    simp only [association, Option.ite_none_right_eq_some, Option.some.injEq, Prod.mk.injEq, RowOutcome.proposed.injEq]
    constructor
    · rintro ⟨hcount, rfl, rfl⟩
      exact ⟨⟨rfl, rfl⟩, hcount⟩
    · rintro ⟨⟨rfl, rfl⟩, hcount⟩
      exact ⟨hcount, rfl, rfl⟩

theorem mem_associations {outcomes : List RowOutcome} {line candidate : ℕ} :
    (line, candidate) ∈ outcomes.zipIdx.filterMap (association outcomes) ↔
      UniquelyAssociated outcomes line candidate := by
  rw [List.mem_filterMap]
  constructor
  · rintro ⟨row, hrow, hsome⟩
    obtain ⟨rfl, hcount⟩ := association_eq_some.1 hsome
    have hat := List.mem_zipIdx_iff_getElem?.1 hrow
    exact ⟨hat, (count_eq_one_iff hat).1 hcount⟩
  · rintro ⟨hat, hunique⟩
    exact ⟨(.proposed line, candidate), List.mem_zipIdx_iff_getElem?.2 hat,
      association_eq_some.2 ⟨rfl, (count_eq_one_iff hat).2 hunique⟩⟩

theorem associatedRow_eq_some {outcomes : List RowOutcome} {rows : List GroundedRow} {line : ℕ} {row : GroundedRow} :
    associatedRow (outcomes.zipIdx.filterMap (association outcomes)) rows line = some row ↔
      ∃ candidate, UniquelyAssociated outcomes line candidate ∧ rows[candidate]? = some row := by
  rw [associatedRow, Option.bind_eq_some_iff]
  constructor
  · rintro ⟨a, ha, hrow⟩
    have hline : a.1 = line := by simpa using List.find?_some ha
    refine ⟨a.2, mem_associations.1 ?_, hrow⟩
    exact hline ▸ List.mem_of_find?_eq_some ha
  · rintro ⟨candidate, hunique, hrow⟩
    cases hfind : (outcomes.zipIdx.filterMap (association outcomes)).find? fun a => a.1 = line with
    | none =>
      have hnone := List.find?_eq_none.1 hfind (line, candidate) (mem_associations.2 hunique)
      simp at hnone
    | some a =>
      have hline : a.1 = line := by simpa using List.find?_some hfind
      have hmem : (line, a.2) ∈ outcomes.zipIdx.filterMap (association outcomes) :=
        hline ▸ List.mem_of_find?_eq_some hfind
      have hcandidate : a.2 = candidate := hunique.2 a.2 (mem_associations.1 hmem).1
      exact ⟨a, rfl, hcandidate ▸ hrow⟩

/-- What fusion may do to a field: keep it; make an extracted field ambiguous where a grounded value differs; or fill
a field that was not extracted with a value printed on the quoted page. An extracted value is never replaced. -/
structure FieldFused (E : GroundingOps) (threshold : ℚ) (kind : FieldKind T) (candidate : CandidateField)
    (document : DocumentText) (deterministic fused : ExtractedField T) : Prop where
  outcome : fused = deterministic ∨
    (deterministic.status = .extracted ∧ fused.status = .ambiguous ∧ fused.value = none ∧
      ∃ old value evidence, deterministic.value = some old ∧
        Grounds E threshold kind candidate document value evidence ∧ kind.same old value = false) ∨
    (deterministic.status ≠ .extracted ∧ fused.status = .extracted ∧
      ∃ value, fused.value = some value ∧ PrintedOnQuotedPage E kind candidate document value fused.evidence)
  not_replaced : deterministic.status = .extracted → fused.value = deterministic.value ∨ fused.value = none

theorem FieldFused.same {kind : FieldKind T} {candidate : CandidateField} {document : DocumentText}
    (deterministic : ExtractedField T) : FieldFused E threshold kind candidate document deterministic deterministic :=
  ⟨.inl rfl, fun _ => .inl rfl⟩

theorem fuseField_fused (kind : FieldKind T) (candidate : CandidateField) (document : DocumentText)
    (deterministic : ExtractedField T) :
    FieldFused E threshold kind candidate document deterministic
      (fuseField kind deterministic (groundCandidate E threshold kind candidate document)).field := by
  set g := groundCandidate E threshold kind candidate document with hg
  unfold fuseField
  split
  · exact .same deterministic
  · rename_i value hvalue
    split
    · rename_i hgrounded
      have hgrounds : Grounds E threshold kind candidate document value g.evidence := ⟨hg ▸ hgrounded, hg ▸ hvalue, hg ▸ rfl⟩
      split
      · rename_i hstatus
        obtain ⟨old, hold⟩ := Option.isSome_iff_exists.1 (deterministic.extracted_contract hstatus).1
        split
        · exact .same deterministic
        · rename_i hdiffers
          have hsame : kind.same old value = false := by simpa [hold] using hdiffers
          exact ⟨.inr (.inl ⟨hstatus, rfl, rfl, old, value, g.evidence, hold, hgrounds, hsame⟩), fun _ => .inr rfl⟩
      · rename_i hstatus
        exact ⟨.inr (.inr ⟨hstatus, rfl, value, rfl, hgrounds.printed⟩), fun h => absurd h hstatus⟩
    · exact .same deterministic

theorem fuseClaim_fused (kind : FieldKind T) (candidate : CandidateField) (document : DocumentText)
    (deterministic : ExtractedField T) :
    FieldFused E threshold kind candidate document deterministic
      (fuseClaim kind deterministic (groundClaim E threshold kind candidate document)).field := by
  unfold groundClaim
  split
  · exact fuseField_fused kind candidate document deterministic
  · exact .same deterministic

/-- Every field of the header is fused within the boundary. -/
structure HeaderFused (E : GroundingOps) (threshold : ℚ) (candidate : VisionInvoiceCandidate)
    (document : DocumentText) (deterministic fused : Invoice) : Prop where
  invoiceNumber : FieldFused E threshold (textField "invoice_number") candidate.invoiceNumber document
    deterministic.invoiceNumber fused.invoiceNumber
  invoiceDate : FieldFused E threshold (dateField E.toUnicode) candidate.invoiceDate document
    deterministic.invoiceDate fused.invoiceDate
  currency : FieldFused E threshold (currencyField E.toUnicode) candidate.currency document
    deterministic.currency fused.currency
  subtotal : FieldFused E threshold (moneyField "subtotal") candidate.subtotal document
    deterministic.subtotal fused.subtotal
  tax : FieldFused E threshold (moneyField "tax") candidate.tax document deterministic.tax fused.tax
  total : FieldFused E threshold (moneyField "total") candidate.total document deterministic.total fused.total

structure LineFused (E : GroundingOps) (threshold : ℚ) (row : CandidateLineItem) (document : DocumentText)
    (deterministic fused : InvoiceLine) : Prop where
  description : FieldFused E threshold (textField "description") row.description document
    deterministic.description fused.description
  quantity : FieldFused E threshold (moneyField "quantity") row.quantity document
    deterministic.quantity fused.quantity
  unitPrice : FieldFused E threshold (moneyField "unit_price") row.unitPrice document
    deterministic.unitPrice fused.unitPrice
  lineTotal : FieldFused E threshold (moneyField "line_total") row.lineTotal document
    deterministic.lineTotal fused.lineTotal

/-- The line at a position is kept, or fused with the one row that is associated with it. -/
def LineKeptOrFused (E : GroundingOps) (threshold : ℚ) (deterministic : Invoice) (candidate : VisionInvoiceCandidate)
    (document : DocumentText) (line : InvoiceLine × ℕ) (fused : InvoiceLine) : Prop :=
  fused = line.1 ∨ ∃ c row, candidate.lineItems[c]? = some row ∧
    UniquelyAssociated (rowOutcomes E document deterministic.lineItems (candidateRows E threshold candidate document))
      line.2 c ∧
    (line.2, c) ∈ (fuseInvoice E threshold deterministic candidate document).rowAssociations ∧
    LineFused E threshold row document line.1 fused

theorem fuseLine_groundRow (row : CandidateLineItem) (document : DocumentText) (line : InvoiceLine) :
    LineFused E threshold row document line (fuseLine line (some (groundRow E threshold document row))).line where
  description := fuseClaim_fused _ _ _ _
  quantity := fuseClaim_fused _ _ _ _
  unitPrice := fuseClaim_fused _ _ _ _
  lineTotal := fuseClaim_fused _ _ _ _

theorem lineKeptOrFused (E : GroundingOps) (threshold : ℚ) (deterministic : Invoice)
    (candidate : VisionInvoiceCandidate) (document : DocumentText) (line : InvoiceLine × ℕ) :
    LineKeptOrFused E threshold deterministic candidate document line
      (fuseLine line.1 (associatedRow (fuseInvoice E threshold deterministic candidate document).rowAssociations
        (candidateRows E threshold candidate document) line.2)).line := by
  cases hrow : associatedRow (fuseInvoice E threshold deterministic candidate document).rowAssociations
      (candidateRows E threshold candidate document) line.2 with
  | none => exact .inl rfl
  | some grounded =>
    obtain ⟨c, hunique, hat⟩ := associatedRow_eq_some.1 hrow
    rw [candidateRows, List.getElem?_map, Option.map_eq_some_iff] at hat
    obtain ⟨row, hat, rfl⟩ := hat
    exact .inr ⟨c, row, hat, hunique, mem_associations.2 hunique, fuseLine_groundRow row document line.1⟩

/-- For every invoice, candidate and document, the fused invoice has the lines of the deterministic one in their
order, its fields stay within the trust boundary, and a line changes only for the row uniquely associated with it. -/
theorem fuseInvoice_within_trust_boundary (E : GroundingOps) (threshold : ℚ) (deterministic : Invoice)
    (candidate : VisionInvoiceCandidate) (document : DocumentText) :
    HeaderFused E threshold candidate document deterministic
        (fuseInvoice E threshold deterministic candidate document).invoice ∧
      (fuseInvoice E threshold deterministic candidate document).invoice.lineItems.length =
        deterministic.lineItems.length ∧
      List.Forall₂ (LineKeptOrFused E threshold deterministic candidate document) deterministic.lineItems.zipIdx
        (fuseInvoice E threshold deterministic candidate document).invoice.lineItems := by
  have hlines : List.Forall₂ (LineKeptOrFused E threshold deterministic candidate document)
      deterministic.lineItems.zipIdx (fuseInvoice E threshold deterministic candidate document).invoice.lineItems := by
    simp only [fuseInvoice, fuseLines, List.map_map, List.forall₂_map_right_iff, List.forall₂_same]
    exact fun line _ => lineKeptOrFused E threshold deterministic candidate document line
  refine ⟨?_, ?_, hlines⟩
  · exact ⟨fuseClaim_fused _ _ _ _, fuseClaim_fused _ _ _ _, fuseClaim_fused _ _ _ _, fuseClaim_fused _ _ _ _,
      fuseClaim_fused _ _ _ _, fuseClaim_fused _ _ _ _⟩
  · rw [← hlines.length_eq, List.length_zipIdx]

/-- The candidate with its rows in another order. -/
def VisionInvoiceCandidate.permuteLines (candidate : VisionInvoiceCandidate)
    (σ : Equiv.Perm (Fin candidate.lineItems.length)) : VisionInvoiceCandidate :=
  { candidate with lineItems := permute candidate.lineItems σ }

section Permuted

variable {s : Equiv.Perm ℕ}

theorem usage_of_perm {document : DocumentText} {rows rows' : List GroundedRow} (h : rows'.Perm rows) :
    usage E document rows' = usage E document rows := by
  funext token
  exact h.countP_eq _

/-- The first pass looks at the other rows through the usage of words alone. -/
theorem rowOutcomes_permutedBy (E : GroundingOps) (document : DocumentText) (deterministic : List InvoiceLine)
    {rows rows' : List GroundedRow} (h : PermutedBy s rows' rows) :
    PermutedBy s (rowOutcomes E document deterministic rows') (rowOutcomes E document deterministic rows) := by
  unfold rowOutcomes
  rw [usage_of_perm h.perm]
  exact h.map _

variable {outcomes outcomes' : List RowOutcome}

theorem rowReason_of_perm (h : outcomes'.Perm outcomes) : rowReason outcomes' = rowReason outcomes := by
  funext outcome
  cases outcome with
  | rejected reason => rfl
  | proposed line => simp only [rowReason, h.count_eq]

theorem uniquelyAssociated_permutedBy (h : PermutedBy s outcomes' outcomes) {line candidate : ℕ} :
    UniquelyAssociated outcomes' line candidate ↔ UniquelyAssociated outcomes line (s candidate) := by
  unfold UniquelyAssociated
  rw [h.getElem?]
  refine and_congr_right fun _ => ⟨fun hunique other hother => ?_, fun hunique other hother => ?_⟩
  · have hback : outcomes'[s.symm other]? = some (.proposed line) := by
      rw [h.getElem?, Equiv.apply_symm_apply, hother]
    rw [← hunique _ hback, Equiv.apply_symm_apply]
  · rw [h.getElem?] at hother
    exact s.injective (hunique _ hother)

/-- No association is listed twice. -/
theorem nodup_associations (outcomes : List RowOutcome) :
    (outcomes.zipIdx.filterMap (association outcomes)).Nodup := by
  have hnd : outcomes.zipIdx.Nodup := by
    refine List.Nodup.of_map Prod.snd ?_
    rw [List.zipIdx_map_snd]
    exact List.nodup_range'
  refine hnd.filterMap fun row row' a hrow hrow' => ?_
  exact (association_eq_some.1 hrow).1.trans (association_eq_some.1 hrow').1.symm

theorem associations_permutedBy (h : PermutedBy s outcomes' outcomes) :
    ((outcomes'.zipIdx.filterMap (association outcomes')).map fun a => (a.1, s a.2)).Perm
      (outcomes.zipIdx.filterMap (association outcomes)) := by
  have hinj : Function.Injective fun a : ℕ × ℕ => (a.1, s a.2) := by
    intro a b hab
    obtain ⟨h1, h2⟩ := Prod.mk.inj hab
    exact Prod.ext h1 (s.injective h2)
  refine (List.perm_ext_iff_of_nodup ((nodup_associations _).map hinj) (nodup_associations _)).2 fun a => ?_
  obtain ⟨line, c⟩ := a
  rw [List.mem_map, mem_associations]
  constructor
  · rintro ⟨b, hb, heq⟩
    obtain ⟨rfl, rfl⟩ := Prod.mk.inj heq
    exact (uniquelyAssociated_permutedBy h).1 (mem_associations.1 hb)
  · intro hunique
    refine ⟨(line, s.symm c), mem_associations.2 ((uniquelyAssociated_permutedBy h).2 ?_), ?_⟩
    · rwa [Equiv.apply_symm_apply]
    · simp

/-- A line finds the same row in every order of the rows. -/
theorem associatedRow_permutedBy {rows rows' : List GroundedRow} (hrows : PermutedBy s rows' rows)
    (h : PermutedBy s outcomes' outcomes) (line : ℕ) :
    associatedRow (outcomes'.zipIdx.filterMap (association outcomes')) rows' line =
      associatedRow (outcomes.zipIdx.filterMap (association outcomes)) rows line := by
  refine Option.ext fun row => ?_
  rw [associatedRow_eq_some, associatedRow_eq_some]
  constructor
  · rintro ⟨c, hunique, hrow⟩
    exact ⟨s c, (uniquelyAssociated_permutedBy h).1 hunique, hrows.getElem? c ▸ hrow⟩
  · rintro ⟨c, hunique, hrow⟩
    obtain ⟨c, rfl⟩ := s.surjective c
    exact ⟨c, (uniquelyAssociated_permutedBy h).2 hunique, hrows.getElem? c ▸ hrow⟩

theorem reasons_permutedBy (E : GroundingOps) (document : DocumentText) (deterministic : List InvoiceLine)
    {rows rows' : List GroundedRow} (h : PermutedBy s rows' rows) :
    PermutedBy s (associateRows E deterministic rows' document).2 (associateRows E deterministic rows document).2 := by
  have houtcomes := rowOutcomes_permutedBy E document deterministic h
  simp only [associateRows]
  rw [rowReason_of_perm houtcomes.perm]
  exact houtcomes.map _

theorem fuseLines_permutedBy (E : GroundingOps) (document : DocumentText) (deterministic : List InvoiceLine)
    {rows rows' : List GroundedRow} (h : PermutedBy s rows' rows) :
    fuseLines deterministic (associateRows E deterministic rows' document).1 rows' =
      fuseLines deterministic (associateRows E deterministic rows document).1 rows := by
  have houtcomes := rowOutcomes_permutedBy E document deterministic h
  refine List.map_congr_left fun line _ => ?_
  simp only [associateRows, associatedRow_permutedBy h houtcomes]

theorem fusedIssues_permutedBy (E : GroundingOps) (document : DocumentText) (deterministic : Invoice)
    {rows rows' : List GroundedRow} (h : PermutedBy s rows' rows) :
    fusedIssues deterministic (associateRows E deterministic.lineItems rows' document).1
        (associateRows E deterministic.lineItems rows' document).2 =
      fusedIssues deterministic (associateRows E deterministic.lineItems rows document).1
        (associateRows E deterministic.lineItems rows document).2 := by
  have hreasons := (reasons_permutedBy E document deterministic.lineItems h).perm
  have hlength := (associations_permutedBy (rowOutcomes_permutedBy E document deterministic.lineItems h)).length_eq
  have hlength : (associateRows E deterministic.lineItems rows' document).1.length =
      (associateRows E deterministic.lineItems rows document).1.length := by
    simpa [associateRows] using hlength
  simp only [fusedIssues, hlength, hreasons.mem_iff]

end Permuted

/-- Permuting the candidate's rows permutes the reasons, maps the associations, and leaves the fused invoice and the
outcome of every field as they are. -/
theorem fuseInvoice_permuteLines (E : GroundingOps) (threshold : ℚ) (deterministic : Invoice)
    (candidate : VisionInvoiceCandidate) (document : DocumentText)
    (σ : Equiv.Perm (Fin candidate.lineItems.length)) :
    PermutedBy (onPositions σ)
        (associateRows E deterministic.lineItems
          (candidateRows E threshold (candidate.permuteLines σ) document) document).2
        (associateRows E deterministic.lineItems (candidateRows E threshold candidate document) document).2 ∧
      ((fuseInvoice E threshold deterministic (candidate.permuteLines σ) document).rowAssociations.map
          fun a => (a.1, onPositions σ a.2)).Perm
        (fuseInvoice E threshold deterministic candidate document).rowAssociations ∧
      (fuseInvoice E threshold deterministic (candidate.permuteLines σ) document).invoice =
        (fuseInvoice E threshold deterministic candidate document).invoice ∧
      (fuseInvoice E threshold deterministic (candidate.permuteLines σ) document).outcomes =
        (fuseInvoice E threshold deterministic candidate document).outcomes := by
  have hrows : PermutedBy (onPositions σ) (candidateRows E threshold (candidate.permuteLines σ) document)
      (candidateRows E threshold candidate document) := (permutedBy_permute candidate.lineItems σ).map _
  have houtcomes := rowOutcomes_permutedBy E document deterministic.lineItems hrows
  refine ⟨reasons_permutedBy E document deterministic.lineItems hrows, associations_permutedBy houtcomes, ?_, ?_⟩
  · simp only [fuseInvoice, fuseLines_permutedBy E document deterministic.lineItems hrows,
      fusedIssues_permutedBy E document deterministic hrows]
    rfl
  · simp only [fuseInvoice, fuseLines_permutedBy E document deterministic.lineItems hrows]
    rfl

end InvoiceOps
