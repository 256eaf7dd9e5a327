import InvoiceOps.Lib.Calendar
import InvoiceOps.Lib.Decimal

/-! The extraction schema (`schemas/extraction.py`): an invoice as the extractors report it, each
field with its status and its evidence. The validators of the source are fields here, so a value
that violates them cannot be built. Coordinates are rationals. -/

namespace InvoiceOps

open Calendar

inductive TextSource
  | embedded
  | ocr
deriving DecidableEq, Repr

inductive ExtractionStatus
  | extracted
  | ambiguous
  | missing
deriving DecidableEq, Repr

structure BoundingBox where
  x0 : ℚ
  y0 : ℚ
  x1 : ℚ
  y1 : ℚ
  unit : (0 ≤ x0 ∧ 0 ≤ y0) ∧ x1 ≤ 1 ∧ y1 ≤ 1
  ordered : x0 ≤ x1 ∧ y0 ≤ y1
deriving DecidableEq, Repr

structure EvidenceSpan where
  page : ℕ
  bbox : BoundingBox
  text : String
  source : TextSource
deriving DecidableEq, Repr

structure ExtractedField (T : Type) where
  value : Option T
  status : ExtractionStatus
  evidence : List EvidenceSpan
  ruleId : Option String
  extracted_contract : status = .extracted → value.isSome ∧ evidence ≠ []
  missing_contract : status = .missing → value = none
deriving DecidableEq, Repr

namespace ExtractedField

variable {T : Type}

theorem missing_extracted (T : Type) (h : ExtractionStatus.missing = .extracted) :
    (none : Option T).isSome ∧ ([] : List EvidenceSpan) ≠ [] := nomatch h

theorem missing_missing (T : Type) (_ : ExtractionStatus.missing = .missing) : (none : Option T) = none := rfl

theorem ambiguous_missing (T : Type) (_ : ExtractionStatus.ambiguous = .missing) : (none : Option T) = none := rfl

/-- The value of a field whose status is `extracted` (`_numeric_value`, `_extracted_value`). -/
def extractedValue (f : ExtractedField T) : Option T :=
  if f.status = .extracted then f.value else none

/-- The field is `extracted` with value `v`. -/
def Holds (f : ExtractedField T) (v : T) : Prop := f.status = .extracted ∧ f.value = some v

theorem extractedValue_eq_some {f : ExtractedField T} {v : T} :
    f.extractedValue = some v ↔ f.Holds v := by
  unfold extractedValue Holds
  split_ifs with h <;> simp [h]

/-- An extracted field always has a value. -/
theorem extractedValue_isSome {f : ExtractedField T} :
    f.extractedValue.isSome ↔ f.status = .extracted := by
  unfold extractedValue
  split_ifs with h
  · simpa [h] using (f.extracted_contract h).1
  · simp [h]

theorem extractedValue_eq_none {f : ExtractedField T} :
    f.extractedValue = none ↔ f.status ≠ .extracted := by
  rw [ne_eq, ← extractedValue_isSome, Option.not_isSome_iff_eq_none]

end ExtractedField

/-- A value read from one stretch of text. -/
def printed {α : Type} (value : α) (text : String) : ExtractedField α where
  value := some value
  status := .extracted
  evidence := [{ page := 1, bbox := ⟨0, 0, 1, 1, by norm_num, by norm_num⟩, text := text, source := .embedded }]
  ruleId := none
  extracted_contract := by simp
  missing_contract := by simp

structure InvoiceLine where
  description : ExtractedField String
  quantity : ExtractedField Decimal
  unitPrice : ExtractedField Decimal
  lineTotal : ExtractedField Decimal
deriving DecidableEq, Repr

inductive ExtractionIssue
  | hybridRowAssociationUnresolved
deriving DecidableEq, Repr

structure Invoice where
  extractionIssues : List ExtractionIssue
  invoiceNumber : ExtractedField String
  invoiceDate : ExtractedField Date
  currency : ExtractedField String
  subtotal : ExtractedField Decimal
  tax : ExtractedField Decimal
  total : ExtractedField Decimal
  lineItems : List InvoiceLine
deriving DecidableEq, Repr

structure WordToken where
  text : String
  page : ℕ
  bbox : BoundingBox
  blockNumber : ℕ
  lineNumber : ℕ
  wordNumber : ℕ
  source : TextSource
deriving DecidableEq, Repr

structure PageText where
  page : ℕ
  words : List WordToken
deriving DecidableEq, Repr

structure DocumentText where
  pages : List PageText
deriving DecidableEq, Repr

end InvoiceOps
