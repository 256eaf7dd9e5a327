import InvoiceOps.Extraction.SupportingGrounding

/-! Fusion of the candidates for supporting documents (`extraction/supporting_hybrid.py`). Candidate rows are paired
with the lines of the deterministic output by their index, and a pair counts only if their descriptions share a visual
row. Every line keeps its place. A row that supplies the description itself, because it has no line or one without a
description, is compared with nothing else, so it may report a row of the document a second time. -/

namespace InvoiceOps

/-- `ExtractedField[object]` -/
abbrev SupportingField := ExtractedField SupportingValue

inductive SupportingRole
  | purchaseOrder
  | goodsReceipt
deriving DecidableEq, Repr

def headerNames : SupportingRole → List String
  | .purchaseOrder => ["po_number", "issue_date", "vendor", "buyer", "currency", "subtotal", "tax", "total"]
  | .goodsReceipt => ["receipt_number", "referenced_po_number", "received_date", "supplier"]

def lineNames : SupportingRole → List String
  | .purchaseOrder => ["line_number", "description", "ordered_quantity", "unit_price", "line_total"]
  | .goodsReceipt => ["description", "received_quantity", "accepted_quantity", "rejected_quantity"]

/-- A deterministic or fused output; fields are read by their names. -/
structure SupportingOutput where
  role : SupportingRole
  header : String → SupportingField
  lineItems : List (String → SupportingField)

structure SupportingCandidate where
  role : SupportingRole
  header : String → CandidateField
  lineItems : List (String → CandidateField)

inductive SupportingFusionState
  | deterministic
  | agreement
  | filled
  | conflictAbstained
  | ungrounded
  | rowAssociationRejected
deriving DecidableEq, Repr

/-- A fused field with what is recorded for its path. -/
structure SupportingFieldFusion where
  field : SupportingField
  state : SupportingFusionState
  reason : Option String

structure SupportingFusion where
  output : SupportingOutput
  outcomes : List (String × SupportingFusionState)
  grounding : List (String × String)

theorem conflict_not_extracted (evidence : List EvidenceSpan) (h : ExtractionStatus.ambiguous = .extracted) :
    (none : Option SupportingValue).isSome ∧ evidence ≠ [] := nomatch h

def conflictField (evidence : List EvidenceSpan) : SupportingField where
  value := none
  status := .ambiguous
  evidence := evidence
  ruleId := some "supporting.vlm.conflict.v1"
  extracted_contract := conflict_not_extracted evidence
  missing_contract := ExtractedField.ambiguous_missing SupportingValue

def missingField : SupportingField where
  value := none
  status := .missing
  evidence := []
  ruleId := none
  extracted_contract := ExtractedField.missing_extracted SupportingValue
  missing_contract := ExtractedField.missing_missing SupportingValue

def sameValue : Option SupportingValue → Option SupportingValue → Bool
  | some a, some b => a.same b
  | none, none => true
  | _, _ => false

variable (E : TableOps)

/-- `_fuse_field`, for the field of this name. -/
def fuseSupportingField (name : String) (deterministic : SupportingField) (candidate : CandidateField)
    (document : DocumentText) : SupportingFieldFusion :=
  if candidate.rawValue = none then ⟨deterministic, .deterministic, none⟩
  else
    match groundField E name candidate document with
    | (none, reason) => ⟨deterministic, .ungrounded, some reason⟩
    | (some proposed, reason) =>
      if deterministic.status = .extracted then
        if sameValue deterministic.value proposed.value then ⟨deterministic, .agreement, some reason⟩
        else ⟨conflictField (deterministic.evidence ++ proposed.evidence), .conflictAbstained, some reason⟩
      else ⟨proposed, .filled, some reason⟩

/-- `_same_row` -/
def sameRow (fields : List SupportingField) : Bool :=
  let evidence := fields.filterMap (·.evidence.head?)
  decide (evidence.length = fields.length) && decide ((evidence.map (·.page)).dedup.length = 1) &&
    decide (maximum (evidence.map (·.bbox.y0)) ≤ minimum (evidence.map (·.bbox.y1)))

/-- The line of this index; beyond the lines its fields are missing. -/
def originalLine (lines : List (String → SupportingField)) (index : ℕ) : String → SupportingField :=
  lines[index]?.getD fun _ => missingField

/-- The fields of a candidate row that can be grounded. -/
def candidateRow (role : SupportingRole) (row : String → CandidateField) (document : DocumentText) : List SupportingField :=
  (lineNames role).filterMap fun name =>
    if (row name).rawValue = none then none else (groundField E name (row name) document).1

/-- The description a candidate row proposes. -/
def candidateDescription (row : String → CandidateField) (document : DocumentText) : Option SupportingField :=
  (groundField E "description" (row "description") document).1

/-- A row with two grounded fields in one visual row, a description among them, which lies in the row of the line's own
description if that has evidence. -/
def associated (role : SupportingRole) (original : String → SupportingField) (row : String → CandidateField)
    (document : DocumentText) : Bool :=
  match candidateDescription E row document with
  | none => false
  | some description =>
    decide (2 ≤ (candidateRow E role row document).length) && sameRow (candidateRow E role row document) &&
      (decide ((original "description").evidence = []) || sameRow [original "description", description])

def fusedLine (original : String → SupportingField) (row : String → CandidateField) (document : DocumentText) :
    String → SupportingField :=
  fun name => (fuseSupportingField E name (original name) (row name) document).field

/-- What a candidate row adds to the lines: the fused line, or the line as it is. -/
def fuseRow (role : SupportingRole) (lines : List (String → SupportingField)) (document : DocumentText)
    (row : (String → CandidateField) × ℕ) : List (String → SupportingField) :=
  if associated E role (originalLine lines row.2) row.1 document then [fusedLine E (originalLine lines row.2) row.1 document]
  else lines[row.2]?.toList

def supportingPath (index : ℕ) (name : String) : String := "line_items." ++ toString index ++ "." ++ name

def supportingRowOutcomes (role : SupportingRole) (lines : List (String → SupportingField)) (document : DocumentText)
    (row : (String → CandidateField) × ℕ) : List (String × SupportingFusionState) :=
  (lineNames role).map fun name =>
    (supportingPath row.2 name,
      if associated E role (originalLine lines row.2) row.1 document then
        (fuseSupportingField E name (originalLine lines row.2 name) (row.1 name) document).state
      else .rowAssociationRejected)

def rowGrounding (role : SupportingRole) (lines : List (String → SupportingField)) (document : DocumentText)
    (row : (String → CandidateField) × ℕ) : List (String × String) :=
  (lineNames role).filterMap fun name =>
    ((fuseSupportingField E name (originalLine lines row.2 name) (row.1 name) document).reason).map fun reason =>
      (supportingPath row.2 name, reason)

def fuseSupporting (deterministic : SupportingOutput) (candidate : SupportingCandidate) (document : DocumentText) :
    Except String SupportingFusion :=
  if deterministic.role ≠ candidate.role then .error "candidate role does not match deterministic output"
  else
    let header := fun name => fuseSupportingField E name (deterministic.header name) (candidate.header name) document
    let rows := candidate.lineItems.zipIdx
    .ok
      { output :=
          { role := deterministic.role
            header := fun name => (header name).field
            lineItems := rows.flatMap (fuseRow E deterministic.role deterministic.lineItems document) ++
              deterministic.lineItems.drop candidate.lineItems.length }
        outcomes := (headerNames deterministic.role).map (fun name => (name, (header name).state)) ++
          rows.flatMap (supportingRowOutcomes E deterministic.role deterministic.lineItems document)
        grounding := ((headerNames deterministic.role).filterMap fun name =>
            (header name).reason.map fun reason => (name, reason)) ++
          rows.flatMap (rowGrounding E deterministic.role deterministic.lineItems document) }

/-- An extracted field stays, or becomes ambiguous. -/
def FieldKept (before after : SupportingField) : Prop :=
  before.status = .extracted → after = before ∨ after.status = .ambiguous

/-- Every line is at its index, with its extracted fields. -/
structure LinesKept (before after : SupportingOutput) : Prop where
  header : ∀ name ∈ headerNames before.role, FieldKept (before.header name) (after.header name)
  lines : ∀ (i : ℕ) (line : String → SupportingField), before.lineItems[i]? = some line →
    ∃ line' : String → SupportingField, after.lineItems[i]? = some line' ∧
      ∀ name ∈ lineNames before.role, FieldKept (line name) (line' name)

/-- No two lines have their descriptions in one visual row. -/
def RowsApart (lines : List (String → SupportingField)) : Prop :=
  ∀ (i j : ℕ) (a b : String → SupportingField), i ≠ j → lines[i]? = some a → lines[j]? = some b →
    sameRow [a "description", b "description"] = false

/-- The lines stay, and if no visual row has two of them then no row has two afterwards. -/
def OneLinePerRow (deterministic : SupportingOutput) (candidate : SupportingCandidate) (document : DocumentText) : Prop :=
  ∀ fusion, fuseSupporting E deterministic candidate document = .ok fusion →
    LinesKept deterministic fusion.output ∧ (RowsApart deterministic.lineItems → RowsApart fusion.output.lineItems)

/-- The candidate row of this index is associated and there is no extracted description at the index, so that its own
becomes the description of the line. -/
def Supplies (deterministic : SupportingOutput) (candidate : SupportingCandidate) (document : DocumentText) (i : ℕ)
    (description : SupportingField) : Prop :=
  ∃ row : String → CandidateField, candidate.lineItems[i]? = some row ∧
    associated E deterministic.role (originalLine deterministic.lineItems i) row document = true ∧
    (originalLine deterministic.lineItems i "description").status ≠ .extracted ∧
    candidateDescription E row document = some description

/-- A row that supplies a description repeats no row: neither that of a line which keeps its description, nor that of
another row which supplies one. -/
def SuppliesApart (deterministic : SupportingOutput) (candidate : SupportingCandidate) (document : DocumentText) : Prop :=
  ∀ i d, Supplies E deterministic candidate document i d →
    (∀ (j : ℕ) (line : String → SupportingField), deterministic.lineItems[j]? = some line →
      (∀ d', ¬Supplies E deterministic candidate document j d') → sameRow [d, line "description"] = false) ∧
    ∀ j d', j ≠ i → Supplies E deterministic candidate document j d' → sameRow [d, d'] = false

section

variable {E} {name : String} {deterministic : SupportingField} {candidate : CandidateField} {document : DocumentText}

theorem fuseSupportingField_kept :
    FieldKept deterministic (fuseSupportingField E name deterministic candidate document).field := by
  intro hextracted
  unfold fuseSupportingField
  split_ifs
  · exact .inl rfl
  · split
    · exact .inl rfl
    · split_ifs
      · exact .inl rfl
      · exact .inr rfl

theorem head_of_extracted (h : deterministic.status = .extracted) :
    (fuseSupportingField E name deterministic candidate document).field.evidence.head? = deterministic.evidence.head? := by
  have hne := (deterministic.extracted_contract h).2
  unfold fuseSupportingField
  split_ifs
  · rfl
  · split
    · rfl
    · split_ifs
      · rfl
      · exact List.head?_append_of_ne_nil _ hne

theorem raw_of_proposed {proposed : SupportingField} (h : (groundField E name candidate document).1 = some proposed) :
    candidate.rawValue ≠ none := by
  intro hnone
  have hreject : (groundField E name candidate document).1 = none := by
    simp [groundField, locateSupportingQuote, hnone]
  rw [hreject] at h
  cases h

theorem field_of_not_extracted (h : deterministic.status ≠ .extracted) {proposed : SupportingField}
    (hproposed : (groundField E name candidate document).1 = some proposed) :
    (fuseSupportingField E name deterministic candidate document).field = proposed := by
  rw [fuseSupportingField, if_neg (raw_of_proposed hproposed)]
  split
  · rename_i reason hground
    rw [hground] at hproposed
    cases hproposed
  · rename_i field reason hground
    rw [hground] at hproposed
    rw [if_neg h]
    exact Option.some.inj hproposed

end

section

variable {a a' b b' : SupportingField}

/-- Whether two fields are in one row is seen from their first evidence. -/
theorem sameRow_congr (ha : a.evidence.head? = a'.evidence.head?) (hb : b.evidence.head? = b'.evidence.head?) :
    sameRow [a, b] = sameRow [a', b'] := by
  have hevidence : [a, b].filterMap (·.evidence.head?) = [a', b'].filterMap (·.evidence.head?) := by
    simp only [List.filterMap_cons, ha, hb, List.filterMap_nil]
  simp only [sameRow, hevidence, List.length_cons, List.length_nil]

theorem sameRow_comm (a b : SupportingField) : sameRow [a, b] = sameRow [b, a] := by
  cases ha : a.evidence.head? with
  | none =>
    cases hb : b.evidence.head? with
    | none => simp [sameRow, ha, hb]
    | some q => simp [sameRow, ha, hb]
  | some p =>
    cases hb : b.evidence.head? with
    | none => simp [sameRow, ha, hb]
    | some q =>
      have hpages : [p.page, q.page].dedup.length = [q.page, p.page].dedup.length :=
        (List.Perm.swap q.page p.page []).dedup.length_eq
      simp only [sameRow, List.filterMap_cons, ha, hb, List.filterMap_nil, List.length_cons, List.length_nil, List.map_cons,
        List.map_nil, hpages, maximum, minimum, List.foldl_cons, List.foldl_nil, max_comm, min_comm]

end

section

variable (deterministic : SupportingOutput) (candidate : SupportingCandidate) (document : DocumentText)

/-- The candidate row of this index, if there is one, is associated. -/
def associatedAt (i : ℕ) : Bool :=
  (candidate.lineItems[i]?).any fun row =>
    associated E deterministic.role (originalLine deterministic.lineItems i) row document

/-- The line that stands for this index. -/
def lineAt (i : ℕ) : String → SupportingField :=
  match candidate.lineItems[i]? with
  | none => originalLine deterministic.lineItems i
  | some row =>
    if associated E deterministic.role (originalLine deterministic.lineItems i) row document then
      fusedLine E (originalLine deterministic.lineItems i) row document
    else originalLine deterministic.lineItems i

/-- The indices that have a line in the output. -/
def keptRows : List ℕ :=
  (List.range (max deterministic.lineItems.length candidate.lineItems.length)).filter fun i =>
    decide (i < deterministic.lineItems.length) || associatedAt E deterministic candidate document i

variable {E} {deterministic candidate document} {i : ℕ} {line : String → SupportingField}

theorem lt_of_associatedAt (h : associatedAt E deterministic candidate document i = true) :
    i < candidate.lineItems.length := by
  obtain ⟨row, hrow, -⟩ := (Option.any_eq_true _ _).1 h
  exact (List.getElem?_eq_some_iff.1 hrow).1

theorem mem_keptRows : i ∈ keptRows E deterministic candidate document ↔
    i < deterministic.lineItems.length ∨ associatedAt E deterministic candidate document i = true := by
  rw [keptRows, List.mem_filter, List.mem_range, Bool.or_eq_true, decide_eq_true_eq, and_iff_right_iff_imp]
  rintro (h | h)
  · exact lt_max_of_lt_left h
  · exact lt_max_of_lt_right (lt_of_associatedAt h)

theorem keptRows_nodup : (keptRows E deterministic candidate document).Nodup := List.nodup_range.filter _

/-- The deterministic lines come first and have their own indices. -/
theorem getElem?_keptRows (h : i < deterministic.lineItems.length) :
    (keptRows E deterministic candidate document)[i]? = some i := by
  have hall : (List.range deterministic.lineItems.length).filter (fun i =>
      decide (i < deterministic.lineItems.length) || associatedAt E deterministic candidate document i) =
        List.range deterministic.lineItems.length :=
    List.filter_eq_self.2 fun j hj => by rw [decide_eq_true (List.mem_range.1 hj), Bool.true_or]
  rw [keptRows, Lists.range_max, List.filter_append, hall, List.getElem?_append_left (by rwa [List.length_range]),
    List.getElem?_range h]

theorem originalLine_of_getElem? (h : deterministic.lineItems[i]? = some line) :
    originalLine deterministic.lineItems i = line := by
  rw [originalLine, h, Option.getD_some]

theorem lineAt_of_not_associated (h : associatedAt E deterministic candidate document i = false) :
    lineAt E deterministic candidate document i = originalLine deterministic.lineItems i := by
  rw [lineAt]
  split
  · rfl
  · rename_i row hrow
    rw [associatedAt, hrow, Option.any_some] at h
    rw [h, if_neg Bool.false_ne_true]

theorem lineAt_of_associated {row : String → CandidateField} (hrow : candidate.lineItems[i]? = some row)
    (h : associatedAt E deterministic candidate document i = true) :
    lineAt E deterministic candidate document i = fusedLine E (originalLine deterministic.lineItems i) row document := by
  rw [associatedAt, hrow, Option.any_some] at h
  simp only [lineAt, hrow, if_pos h]

/-- A candidate row adds the line of its index, if that has one. -/
theorem fuseRow_eq {row : String → CandidateField} (hrow : candidate.lineItems[i]? = some row) :
    fuseRow E deterministic.role deterministic.lineItems document (row, i) =
      if (decide (i < deterministic.lineItems.length) || associatedAt E deterministic candidate document i) = true then
        [lineAt E deterministic candidate document i]
      else [] := by
  have hat : associatedAt E deterministic candidate document i =
      associated E deterministic.role (originalLine deterministic.lineItems i) row document := by
    rw [associatedAt, hrow, Option.any_some]
  rw [fuseRow, ← hat]
  cases h : associatedAt E deterministic candidate document i with
  | true => rw [if_pos rfl, Bool.or_true, if_pos rfl, lineAt_of_associated hrow h]
  | false =>
    rw [if_neg Bool.false_ne_true, Bool.or_false, lineAt_of_not_associated h]
    by_cases hlt : i < deterministic.lineItems.length
    · simp [hlt, originalLine]
    · simp [hlt]

theorem drop_eq : deterministic.lineItems.drop candidate.lineItems.length =
    ((List.range' candidate.lineItems.length (deterministic.lineItems.length - candidate.lineItems.length)).map
      (lineAt E deterministic candidate document)) := by
  refine List.ext_getElem? fun i => ?_
  rw [List.getElem?_drop, List.getElem?_map]
  by_cases hi : i < deterministic.lineItems.length - candidate.lineItems.length
  · have hlt : candidate.lineItems.length + i < deterministic.lineItems.length := by omega
    have hnone : candidate.lineItems[candidate.lineItems.length + i]? = none :=
      List.getElem?_eq_none (Nat.le_add_right _ _)
    rw [List.getElem?_range' hi, Option.map_some, one_mul, lineAt, hnone, List.getElem?_eq_getElem hlt]
    exact congrArg some (originalLine_of_getElem? (List.getElem?_eq_getElem hlt)).symm
  · rw [List.getElem?_eq_none (by omega), List.getElem?_eq_none (by rw [List.length_range']; omega), Option.map_none]

/-- The lines of the output are those of the indices that have one, in order. -/
theorem lineItems_eq : candidate.lineItems.zipIdx.flatMap (fuseRow E deterministic.role deterministic.lineItems document) ++
    deterministic.lineItems.drop candidate.lineItems.length =
      (keptRows E deterministic candidate document).map (lineAt E deterministic candidate document) := by
  have hrows : candidate.lineItems.zipIdx.flatMap (fuseRow E deterministic.role deterministic.lineItems document) =
      ((List.range candidate.lineItems.length).filter fun i => decide (i < deterministic.lineItems.length) ||
        associatedAt E deterministic candidate document i).map (lineAt E deterministic candidate document) := by
    rw [← Lists.flatMap_ite, List.range_eq_range', ← List.zipIdx_map_snd 0, List.flatMap_map]
    exact List.flatMap_congr fun row hrow => fuseRow_eq (List.mem_zipIdx_iff_getElem?.1 hrow)
  have hrest : (List.range' candidate.lineItems.length
      (deterministic.lineItems.length - candidate.lineItems.length)).filter (fun i =>
        decide (i < deterministic.lineItems.length) || associatedAt E deterministic candidate document i) =
      List.range' candidate.lineItems.length (deterministic.lineItems.length - candidate.lineItems.length) := by
    refine List.filter_eq_self.2 fun i hi => ?_
    rw [List.mem_range'_1] at hi
    rw [decide_eq_true (by omega), Bool.true_or]
  rw [hrows, drop_eq, ← List.map_append, keptRows, max_comm, Lists.range_max, List.filter_append, hrest]

end

theorem rowsApart_map_iff {is : List ℕ} (hnd : is.Nodup) {f : ℕ → String → SupportingField} :
    RowsApart (is.map f) ↔ ∀ i ∈ is, ∀ j ∈ is, i ≠ j → sameRow [f i "description", f j "description"] = false := by
  constructor
  · intro h i hi j hj hne
    obtain ⟨p, hp⟩ := List.mem_iff_getElem?.1 hi
    obtain ⟨q, hq⟩ := List.mem_iff_getElem?.1 hj
    refine h p q (f i) (f j) ?_ (by rw [List.getElem?_map, hp, Option.map_some]) (by rw [List.getElem?_map, hq, Option.map_some])
    rintro rfl
    exact hne (Option.some.inj (hp.symm.trans hq))
  · intro h p q a b hpq ha hb
    rw [List.getElem?_map, Option.map_eq_some_iff] at ha hb
    obtain ⟨i, hi, rfl⟩ := ha
    obtain ⟨j, hj, rfl⟩ := hb
    refine h i (List.mem_of_getElem? hi) j (List.mem_of_getElem? hj) ?_
    rintro rfl
    exact hpq ((List.getElem?_inj (List.getElem?_eq_some_iff.1 hi).1 hnd).1 (hi.trans hj.symm))

section

variable {E} {deterministic : SupportingOutput} {candidate : SupportingCandidate} {document : DocumentText} {i j : ℕ}
  {d d' : SupportingField}

theorem Supplies.associatedAt (h : Supplies E deterministic candidate document i d) :
    InvoiceOps.associatedAt E deterministic candidate document i = true := by
  obtain ⟨row, hrow, hassociated, -, -⟩ := h
  rw [InvoiceOps.associatedAt, hrow, Option.any_some, hassociated]

theorem Supplies.lineAt_description (h : Supplies E deterministic candidate document i d) :
    lineAt E deterministic candidate document i "description" = d := by
  have hat := h.associatedAt
  obtain ⟨row, hrow, -, hstatus, hd⟩ := h
  rw [lineAt_of_associated hrow hat, fusedLine]
  exact field_of_not_extracted hstatus hd

/-- An associated row proposes a description, which is supplied unless there is an extracted one. -/
theorem extracted_of_associated (hat : associatedAt E deterministic candidate document i = true)
    (hnone : ∀ d, ¬Supplies E deterministic candidate document i d) :
    (originalLine deterministic.lineItems i "description").status = .extracted := by
  by_contra hstatus
  obtain ⟨row, hrow, hassociated⟩ := (Option.any_eq_true _ _).1 hat
  cases hd : candidateDescription E row document with
  | none =>
    rw [associated, hd] at hassociated
    cases hassociated
  | some d => exact hnone d ⟨row, hrow, hassociated, hstatus, hd⟩

/-- Without a supplied description the line stays in the row it was in. -/
theorem head_lineAt (hnone : ∀ d, ¬Supplies E deterministic candidate document i d) :
    (lineAt E deterministic candidate document i "description").evidence.head? =
      (originalLine deterministic.lineItems i "description").evidence.head? := by
  cases hat : associatedAt E deterministic candidate document i with
  | false => rw [lineAt_of_not_associated hat]
  | true =>
    have hextracted := extracted_of_associated hat hnone
    obtain ⟨row, hrow, -⟩ := (Option.any_eq_true _ _).1 hat
    rw [lineAt_of_associated hrow hat, fusedLine]
    exact head_of_extracted hextracted

/-- An index with a line either supplies its description or is one of a deterministic line. -/
theorem lt_of_not_supplies (hi : i ∈ keptRows E deterministic candidate document)
    (hnone : ∀ d, ¬Supplies E deterministic candidate document i d) : i < deterministic.lineItems.length := by
  by_contra hlt
  have hat := (mem_keptRows.1 hi).resolve_left hlt
  have hextracted := extracted_of_associated hat hnone
  rw [originalLine, List.getElem?_eq_none (Nat.le_of_not_lt hlt)] at hextracted
  cases hextracted

theorem sameRow_supplied (h : Supplies E deterministic candidate document i d)
    (hapart : SuppliesApart E deterministic candidate document) (hj : j ∈ keptRows E deterministic candidate document)
    (hne : i ≠ j) : sameRow [lineAt E deterministic candidate document i "description",
      lineAt E deterministic candidate document j "description"] = false := by
  rw [h.lineAt_description]
  by_cases hsupplies : ∃ d', Supplies E deterministic candidate document j d'
  · obtain ⟨d', h'⟩ := hsupplies
    rw [h'.lineAt_description]
    exact (hapart i d h).2 j d' hne.symm h'
  · have hnone := not_exists.1 hsupplies
    have hline := List.getElem?_eq_getElem (lt_of_not_supplies hj hnone)
    rw [sameRow_congr rfl (head_lineAt hnone), originalLine_of_getElem? hline]
    exact (hapart i d h).1 j _ hline hnone

theorem rowsApart_of_suppliesApart (hlines : RowsApart deterministic.lineItems)
    (hapart : SuppliesApart E deterministic candidate document) :
    RowsApart ((keptRows E deterministic candidate document).map (lineAt E deterministic candidate document)) := by
  rw [rowsApart_map_iff keptRows_nodup]
  intro i hi j hj hne
  by_cases hi' : ∃ d, Supplies E deterministic candidate document i d
  · obtain ⟨d, hd⟩ := hi'
    exact sameRow_supplied hd hapart hj hne
  · by_cases hj' : ∃ d, Supplies E deterministic candidate document j d
    · obtain ⟨d, hd⟩ := hj'
      rw [sameRow_comm]
      exact sameRow_supplied hd hapart hi hne.symm
    · have hline := List.getElem?_eq_getElem (lt_of_not_supplies hi (not_exists.1 hi'))
      have hline' := List.getElem?_eq_getElem (lt_of_not_supplies hj (not_exists.1 hj'))
      rw [sameRow_congr (head_lineAt (not_exists.1 hi')) (head_lineAt (not_exists.1 hj')), originalLine_of_getElem? hline,
        originalLine_of_getElem? hline']
      exact hlines i j _ _ hne hline hline'

theorem suppliesApart_of_rowsApart
    (h : RowsApart ((keptRows E deterministic candidate document).map (lineAt E deterministic candidate document))) :
    SuppliesApart E deterministic candidate document := by
  rw [rowsApart_map_iff keptRows_nodup] at h
  intro i d hd
  have hi : i ∈ keptRows E deterministic candidate document := mem_keptRows.2 (.inr hd.associatedAt)
  constructor
  · intro j line hline hnone
    have hj : j ∈ keptRows E deterministic candidate document := mem_keptRows.2 (.inl (List.getElem?_eq_some_iff.1 hline).1)
    have hne : i ≠ j := by
      rintro rfl
      exact hnone d hd
    have hrow := h i hi j hj hne
    rwa [hd.lineAt_description, sameRow_congr rfl (head_lineAt hnone), originalLine_of_getElem? hline] at hrow
  · intro j d' hne hd'
    have hrow := h i hi j (mem_keptRows.2 (.inr hd'.associatedAt)) hne.symm
    rwa [hd.lineAt_description, hd'.lineAt_description] at hrow

variable (E deterministic candidate document) in
theorem fuseSupporting_ok (hrole : deterministic.role = candidate.role) :
    ∃ fusion, fuseSupporting E deterministic candidate document = .ok fusion ∧
      (∀ name, fusion.output.header name =
        (fuseSupportingField E name (deterministic.header name) (candidate.header name) document).field) ∧
      fusion.output.lineItems =
        (keptRows E deterministic candidate document).map (lineAt E deterministic candidate document) := by
  rw [fuseSupporting, if_neg (not_not.2 hrole)]
  exact ⟨_, rfl, fun _ => rfl, lineItems_eq⟩

theorem lineAt_kept (name : String) : FieldKept (originalLine deterministic.lineItems i name)
    (lineAt E deterministic candidate document i name) := by
  cases hat : associatedAt E deterministic candidate document i with
  | false =>
    rw [lineAt_of_not_associated hat]
    exact fun _ => .inl rfl
  | true =>
    obtain ⟨row, hrow, -⟩ := (Option.any_eq_true _ _).1 hat
    rw [lineAt_of_associated hrow hat]
    exact fuseSupportingField_kept

/-- Fusion reports no row of the document as two lines exactly when no row that supplies a description repeats one. -/
theorem oneLinePerRow_iff (E : TableOps) (deterministic : SupportingOutput) (candidate : SupportingCandidate)
    (document : DocumentText) : OneLinePerRow E deterministic candidate document ↔
      (deterministic.role = candidate.role → RowsApart deterministic.lineItems →
        SuppliesApart E deterministic candidate document) := by
  constructor
  · intro h hrole hlines
    obtain ⟨fusion, hok, -, hitems⟩ := fuseSupporting_ok E deterministic candidate document hrole
    have hrows := (h fusion hok).2 hlines
    rw [hitems] at hrows
    exact suppliesApart_of_rowsApart hrows
  · intro h fusion hok
    have hrole : deterministic.role = candidate.role := by
      by_contra hne
      rw [fuseSupporting, if_pos hne] at hok
      cases hok
    obtain ⟨fusion', hok', hheader, hitems⟩ := fuseSupporting_ok E deterministic candidate document hrole
    obtain rfl : fusion' = fusion := Except.ok.inj (hok'.symm.trans hok)
    refine ⟨⟨fun name _ => ?_, fun i line hline => ?_⟩, fun hlines => ?_⟩
    · rw [hheader]
      exact fuseSupportingField_kept
    · have hlt := (List.getElem?_eq_some_iff.1 hline).1
      refine ⟨lineAt E deterministic candidate document i, ?_, fun name _ => ?_⟩
      · rw [hitems, List.getElem?_map, getElem?_keptRows hlt, Option.map_some]
      · have hkept : FieldKept (originalLine deterministic.lineItems i name)
            (lineAt E deterministic candidate document i name) := lineAt_kept name
        rwa [originalLine_of_getElem? hline] at hkept
    · rw [hitems]
      exact rowsApart_of_suppliesApart hlines (h hrole hlines)

end

def widgetPage : DocumentText := ⟨[⟨0, [leftWord "1", rightWord "Widgets"]⟩]⟩

/-- The description, found by the rules. -/
def widgetDescription : SupportingField where
  value := some (.text "Widgets")
  status := .extracted
  evidence := [⟨0, (rightWord "Widgets").bbox, "Widgets", .embedded⟩]
  ruleId := none
  extracted_contract _ := ⟨rfl, List.cons_ne_nil _ _⟩
  missing_contract := proposed_not_missing (.text "Widgets")

def widgetOrder : SupportingOutput where
  role := .purchaseOrder
  header := fun _ => missingField
  lineItems := [fun name => if name = "description" then widgetDescription else missingField]

def widgetRow : String → CandidateField := fun name =>
  if name = "line_number" then ⟨some "1", some 0, some "1"⟩
  else if name = "description" then ⟨some "Widgets", some 0, some "Widgets"⟩
  else ⟨none, none, none⟩

/-- The only row of the page is proposed twice. -/
def widgetCandidate : SupportingCandidate where
  role := .purchaseOrder
  header := fun _ => ⟨none, none, none⟩
  lineItems := [widgetRow, widgetRow]

theorem widgetOrder_apart : RowsApart widgetOrder.lineItems := by
  intro i j a b hne ha hb
  have hi := (List.getElem?_eq_some_iff.1 ha).1
  have hj := (List.getElem?_eq_some_iff.1 hb).1
  simp only [widgetOrder, List.length_singleton] at hi hj
  omega

/-- There is one line before and there are two afterwards. -/
theorem widget_twice : ¬OneLinePerRow asciiTables widgetOrder widgetCandidate widgetPage := by
  intro h
  obtain ⟨fusion, hok, -, hitems⟩ := fuseSupporting_ok asciiTables widgetOrder widgetCandidate widgetPage rfl
  have hrows := (h fusion hok).2 widgetOrder_apart
  rw [hitems, rowsApart_map_iff keptRows_nodup] at hrows
  have hsame : sameRow [lineAt asciiTables widgetOrder widgetCandidate widgetPage 0 "description",
      lineAt asciiTables widgetOrder widgetCandidate widgetPage 1 "description"] = true := by
    decide +kernel
  have hsecond : associatedAt asciiTables widgetOrder widgetCandidate widgetPage 1 = true := by
    decide +kernel
  have hapart := hrows 0 (mem_keptRows.2 (.inl (by decide))) 1 (mem_keptRows.2 (.inr hsecond)) (by decide)
  rw [hsame] at hapart
  cases hapart

end InvoiceOps
