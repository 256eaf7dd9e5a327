import InvoiceOps.Lib.Run
import Mathlib.Data.List.Basic
import Mathlib.Logic.Function.Basic

/-! The extraction of a supporting document (`extraction/supporting_service.py`,
`extraction/supporting_hybrid_service.py` and the task that calls them in `workers/extraction/tasks.py`). The
state holds the two runs of one document and role, the calls of the vision model, and the deliveries of the task,
which take their steps in any order. A run is read once and written later, by an update that does not ask what it
overwrites. -/

namespace InvoiceOps

open StateMachine

inductive SupportingExtractionStatus
  | processing
  | succeeded
  | failed
deriving DecidableEq, Repr

inductive ModelCallStatus
  | skipped
  | processing
  | succeeded
  | failed
deriving DecidableEq, Repr

/-- The two extractors; each has a run of its own, and the hybrid service calls the baseline service first. -/
inductive SupportingExtractor
  | baseline
  | hybrid
deriving DecidableEq, Repr

/-- `TERMINAL_EXTRACTION_ERRORS`: the errors of the text extraction, and an output that does not validate. -/
inductive ExtractionError
  | encryptedDocument
  | unsupportedDocumentType
  | ocrUnavailable
  | validation
  | unreadableDocument
deriving DecidableEq, Repr

def extractionErrorCode : ExtractionError → String
  | .encryptedDocument => "document_encrypted"
  | .unsupportedDocumentType => "document_unsupported"
  | .ocrUnavailable => "ocr_unavailable"
  | .validation => "extraction_schema_invalid"
  | .unreadableDocument => "document_unreadable"

def safeExtractionErrorMessage : ExtractionError → String
  | .encryptedDocument => "The document is password-protected"
  | .unsupportedDocumentType => "The document type is not supported"
  | .ocrUnavailable => "OCR is unavailable for this document"
  | .validation => "The extracted result did not match the invoice schema"
  | .unreadableDocument => "The document could not be read"

structure SupportingExtractionRun (O : Type) where
  status : SupportingExtractionStatus
  outputJson : Option O
  usedOcr : Option Bool
  errorCode : Option String
  errorMessage : Option String
deriving DecidableEq, Repr

structure SupportingModelCall (C : Type) where
  status : ModelCallStatus
  candidateJson : Option C
  errorCode : Option String
deriving DecidableEq, Repr

/-- The functions of a document of type `D` the services work with: outputs `O`, and candidates `C` of the model. -/
structure SupportingEnv (D O C : Type) where
  /-- `extract_purchase_order` or `extract_goods_receipt`, validated. -/
  extract : D → Except ExtractionError O
  usedOcr : D → Bool
  /-- `route_supporting`: the reasons to ask the model, none of them when it is not asked. -/
  route : O → D → List String
  /-- The request fingerprint; all its other parts are fixed. -/
  fingerprint : List String → String
  /-- The validation of a candidate and `fuse_supporting`. -/
  fuse : O → C → D → Option O

def MAX_RETRIES : ℕ := 3

inductive DeliveryPhase (D O C : Type)
  | begun
  /-- The baseline run was not `SUCCEEDED`. -/
  | extracting
  /-- The baseline service has returned, with the output of its run. -/
  | extracted (output : Option O)
  /-- The hybrid run has been looked for; `loaded` when it was there, and not `SUCCEEDED`. -/
  | searched (baseline : O) (loaded : Bool)
  | routed (baseline : O) (text : D) (reasons : List String) (loaded : Bool)
  | opened (baseline : O) (text : D) (reasons : List String)
  | calling (baseline : O) (text : D) (reasons : List String)
  | locked (baseline : O) (text : D) (reasons : List String) (call : SupportingModelCall C)
  | writing (output : O) (usedOcr : Bool)
  /-- An operational failure. -/
  | raised
  /-- The last retry has failed, and the run is there to be marked. -/
  | marking
  | ended

structure Delivery (D O C : Type) where
  service : SupportingExtractor
  retries : ℕ
  phase : DeliveryPhase D O C

structure SupportingWorld (D O C : Type) where
  runs : SupportingExtractor → Option (SupportingExtractionRun O)
  calls : String → Option (SupportingModelCall C)
  /-- The delivery that holds the row of a call. -/
  locks : String → Option ℕ
  /-- The retry counts of the messages; a message may be delivered again. -/
  sent : List ℕ
  deliveries : List (Delivery D O C)

def SupportingWorld.initial (D O C : Type) : SupportingWorld D O C where
  runs _ := none
  calls _ := none
  locks _ := none
  sent := [0]
  deliveries := []

/-- A step of a delivery, with what it is told by the object store, the text extractor or the provider. -/
inductive SupportingAct (D C : Type)
  | deliver (service : SupportingExtractor) (retries : ℕ)
  | check (i : ℕ)
  | complete (i : ℕ) (text : Except ExtractionError D)
  | search (i : ℕ)
  | route (i : ℕ) (text : Except ExtractionError D)
  | openRun (i : ℕ)
  | openCall (i : ℕ)
  | lockCall (i : ℕ)
  | answer (i : ℕ) (response : Except String C)
  | write (i : ℕ)
  | raise (i : ℕ)
  | retry (i : ℕ)
  | mark (i : ℕ)
  | lose (i : ℕ)

section

variable {D O C : Type} (E : SupportingEnv D O C) (w : SupportingWorld D O C) (i : ℕ) (d : Delivery D O C)

/-- The run as `_get_or_create` inserts it. -/
def SupportingExtractionRun.created (O : Type) : SupportingExtractionRun O := ⟨.processing, none, none, none, none⟩

def SupportingExtractionRun.succeed (run : SupportingExtractionRun O) (output : O) (usedOcr : Bool) :
    SupportingExtractionRun O :=
  { run with
    status := .succeeded
    outputJson := some output
    usedOcr := some usedOcr
    errorCode := none
    errorMessage := none }

/-- A failed extraction leaves the output as it is. -/
def SupportingExtractionRun.fail (run : SupportingExtractionRun O) (e : ExtractionError) : SupportingExtractionRun O :=
  { run with
    status := .failed
    errorCode := some (extractionErrorCode e)
    errorMessage := some (safeExtractionErrorMessage e) }

/-- The hybrid service does not touch the error fields. -/
def SupportingExtractionRun.finish (run : SupportingExtractionRun O) (output : O) (usedOcr : Bool) :
    SupportingExtractionRun O :=
  { run with status := .succeeded, outputJson := some output, usedOcr := some usedOcr }

def SupportingExtractionRun.markOperationalFailure (run : SupportingExtractionRun O) : SupportingExtractionRun O :=
  { run with
    status := .failed
    outputJson := none
    errorCode := some "processing_failed"
    errorMessage := some "Supporting-document processing failed" }

def SupportingWorld.enter (phase : DeliveryPhase D O C) : SupportingWorld D O C :=
  { w with deliveries := w.deliveries.set i { d with phase := phase } }

def SupportingWorld.release : SupportingWorld D O C :=
  { w with locks := fun f => if w.locks f = some i then none else w.locks f }

def SupportingWorld.insertRun (k : SupportingExtractor) : SupportingWorld D O C :=
  { w with runs := Function.update w.runs k (some (.created O)) }

/-- An update by the id of the run, whatever its status is. -/
def SupportingWorld.updateRun (k : SupportingExtractor)
    (f : SupportingExtractionRun O → SupportingExtractionRun O) : SupportingWorld D O C :=
  { w with runs := Function.update w.runs k ((w.runs k).map f) }

def SupportingWorld.storeCall (fingerprint : String) (call : SupportingModelCall C) : SupportingWorld D O C :=
  { w with calls := Function.update w.calls fingerprint (some call) }

/-- What follows the baseline service: the hybrid service goes on with the output. -/
def Delivery.afterBaseline (output : Option O) : DeliveryPhase D O C :=
  match d.service with
  | .baseline => .ended
  | .hybrid => .extracted output

/-- `_get_or_create` and the check of the status, for the run of `k`: `served` when it is `SUCCEEDED`. -/
def SupportingWorld.checkRun (k : SupportingExtractor) (working : DeliveryPhase D O C)
    (served : SupportingExtractionRun O → DeliveryPhase D O C) : SupportingWorld D O C :=
  match w.runs k with
  | none => (w.insertRun k).enter i d working
  | some run => w.enter i d (if run.status = .succeeded then served run else working)

/-- `SupportingExtractionService.process` after its check. -/
def SupportingWorld.complete (text : Except ExtractionError D) : SupportingWorld D O C :=
  match text.bind fun t => (E.extract t).map fun output => (t, output) with
  | .ok (t, output) =>
    (w.updateRun .baseline (·.succeed output (E.usedOcr t))).enter i d (d.afterBaseline (some output))
  | .error e => (w.updateRun .baseline (·.fail e)).enter i d .ended

def SupportingWorld.search (output : Option O) : SupportingWorld D O C :=
  match output with
  | none => w.enter i d .raised
  | some baseline =>
    match w.runs .hybrid with
    | none => w.enter i d (.searched baseline false)
    | some run => w.enter i d (if run.status = .succeeded then .ended else .searched baseline true)

/-- The deterministic output is returned when nothing asks for the model. -/
def SupportingWorld.route (baseline : O) (loaded : Bool) (text : Except ExtractionError D) : SupportingWorld D O C :=
  match text with
  | .error _ => w.enter i d .ended
  | .ok t =>
    match E.route baseline t with
    | [] => w.enter i d .ended
    | reasons => w.enter i d (.routed baseline t reasons loaded)

/-- `_get_or_create_run`: a run that is in the session already is not read again. -/
def SupportingWorld.openRun (baseline : O) (text : D) (reasons : List String) (loaded : Bool) : SupportingWorld D O C :=
  if loaded then w.enter i d (.opened baseline text reasons)
  else w.checkRun i d .hybrid (.opened baseline text reasons) fun _ => .ended

/-- `_get_or_create_call`. -/
def SupportingWorld.openCall (baseline : O) (text : D) (reasons : List String) : SupportingWorld D O C :=
  match w.calls (E.fingerprint reasons) with
  | some _ => w.enter i d (.calling baseline text reasons)
  | none => (w.storeCall (E.fingerprint reasons) ⟨.processing, none, none⟩).enter i d (.calling baseline text reasons)

def SupportingWorld.lockCall (baseline : O) (text : D) (reasons : List String) : Option (SupportingWorld D O C) :=
  if w.locks (E.fingerprint reasons) = none then
    match w.calls (E.fingerprint reasons) with
    | none => some (w.enter i d .raised)
    | some call =>
      some { w.enter i d (.locked baseline text reasons call) with
        locks := Function.update w.locks (E.fingerprint reasons) (some i) }
  else none

/-- A call that has an outcome is replayed under its lock; another one is made, and its outcome is committed. -/
def SupportingWorld.answer (baseline : O) (text : D) (reasons : List String) (call : SupportingModelCall C)
    (response : Except String C) : SupportingWorld D O C :=
  match call.status, call.candidateJson with
  | .succeeded, some candidate =>
    w.enter i d (.writing ((E.fuse baseline candidate text).getD baseline) (E.usedOcr text))
  | .failed, _ => w.enter i d (.writing baseline (E.usedOcr text))
  | _, _ =>
    match response.map fun candidate => (candidate, E.fuse baseline candidate text) with
    | .ok (candidate, some output) =>
      ((w.storeCall (E.fingerprint reasons) ⟨.succeeded, some candidate, none⟩).release i).enter i d
        (.writing output (E.usedOcr text))
    | .ok (_, none) =>
      ((w.storeCall (E.fingerprint reasons) ⟨.failed, none, some "provider_schema_invalid"⟩).release i).enter i d
        (.writing baseline (E.usedOcr text))
    | .error code =>
      ((w.storeCall (E.fingerprint reasons) ⟨.failed, none, some code⟩).release i).enter i d
        (.writing baseline (E.usedOcr text))

/-- The task after an operational failure: it is sent again, or after the last retry `_get_or_create` looks for the
run to mark. -/
def SupportingWorld.retry : SupportingWorld D O C :=
  if MAX_RETRIES ≤ d.retries then w.checkRun i d .baseline .marking fun _ => .marking
  else { w.enter i d .ended with sent := w.sent ++ [d.retries + 1] }

/-- A delivery that has neither failed nor ended. -/
def DeliveryPhase.active : DeliveryPhase D O C → Bool
  | .raised | .marking | .ended => false
  | _ => true

/-- One step. A step that its delivery is not ready for, or that has to wait for a lock, is not enabled. -/
def SupportingWorld.next : SupportingAct D C → Option (SupportingWorld D O C)
  | .deliver service retries =>
    if retries ∈ w.sent then some { w with deliveries := w.deliveries ++ [⟨service, retries, .begun⟩] } else none
  | .check i => w.deliveries[i]?.bind fun d =>
    match d.phase with
    | .begun => some (w.checkRun i d .baseline .extracting fun run => d.afterBaseline run.outputJson)
    | _ => none
  | .complete i text => w.deliveries[i]?.bind fun d =>
    match d.phase with
    | .extracting => some (w.complete E i d text)
    | _ => none
  | .search i => w.deliveries[i]?.bind fun d =>
    match d.phase with
    | .extracted output => some (w.search i d output)
    | _ => none
  | .route i text => w.deliveries[i]?.bind fun d =>
    match d.phase with
    | .searched baseline loaded => some (w.route E i d baseline loaded text)
    | _ => none
  | .openRun i => w.deliveries[i]?.bind fun d =>
    match d.phase with
    | .routed baseline text reasons loaded => some (w.openRun i d baseline text reasons loaded)
    | _ => none
  | .openCall i => w.deliveries[i]?.bind fun d =>
    match d.phase with
    | .opened baseline text reasons => some (w.openCall E i d baseline text reasons)
    | _ => none
  | .lockCall i => w.deliveries[i]?.bind fun d =>
    match d.phase with
    | .calling baseline text reasons => w.lockCall E i d baseline text reasons
    | _ => none
  | .answer i response => w.deliveries[i]?.bind fun d =>
    match d.phase with
    | .locked baseline text reasons call => some (w.answer E i d baseline text reasons call response)
    | _ => none
  | .write i => w.deliveries[i]?.bind fun d =>
    match d.phase with
    | .writing output usedOcr => some (((w.updateRun .hybrid (·.finish output usedOcr)).release i).enter i d .ended)
    | _ => none
  | .raise i => w.deliveries[i]?.bind fun d =>
    if d.phase.active then some ((w.release i).enter i d .raised) else none
  | .retry i => w.deliveries[i]?.bind fun d =>
    match d.phase with
    | .raised => some (w.retry i d)
    | _ => none
  | .mark i => w.deliveries[i]?.bind fun d =>
    match d.phase with
    | .marking => some ((w.updateRun .baseline (·.markOperationalFailure)).enter i d .ended)
    | _ => none
  | .lose i => w.deliveries[i]?.bind fun d => some ((w.release i).enter i d .ended)

end

/-- The delivery has found the run of `k` not `SUCCEEDED`, and has not written it yet. -/
def DeliveryPhase.pastCheck {D O C : Type} (k : SupportingExtractor) : DeliveryPhase D O C → Bool
  | .extracting => k = .baseline
  | .searched _ loaded | .routed _ _ _ loaded => k = .hybrid && loaded
  | .opened _ _ _ | .calling _ _ _ | .locked _ _ _ _ | .writing _ _ => k = .hybrid
  | _ => false

def SupportingEnv.extracts {D O C : Type} (E : SupportingEnv D O C) (text : Except ExtractionError D) : Bool :=
  (text.bind E.extract).isOk

/-- The delivery that commits a success with a step, and the run it commits it to. -/
def SupportingEnv.succeeds {D O C : Type} (E : SupportingEnv D O C) :
    SupportingAct D C → Option (ℕ × SupportingExtractor)
  | .complete i text => if E.extracts text then some (i, .baseline) else none
  | .write i => some (i, .hybrid)
  | _ => none

section

variable {D O C : Type} {E : SupportingEnv D O C} {w w' : SupportingWorld D O C} {a : SupportingAct D C} {i : ℕ}
  {d : Delivery D O C}

/-- A delivery goes from one phase to another one, and the runs become `runs`. -/
inductive RunsMove (E : SupportingEnv D O C) (w : SupportingWorld D O C) (a : SupportingAct D C) (i : ℕ)
    (phase phase' : DeliveryPhase D O C) : (SupportingExtractor → Option (SupportingExtractionRun O)) → Prop
  | read : (∀ k, phase'.pastCheck k = true → phase.pastCheck k = true ∨
        ∃ run, w.runs k = some run ∧ run.status ≠ .succeeded) → RunsMove E w a i phase phase' w.runs
  | create {k : SupportingExtractor} : w.runs k = none → (∀ k', phase'.pastCheck k' = true → k' = k) →
      RunsMove E w a i phase phase' (Function.update w.runs k (some (.created O)))
  | update {k : SupportingExtractor} {f : SupportingExtractionRun O → SupportingExtractionRun O} :
      (∀ k', phase'.pastCheck k' = false) → (phase.pastCheck k = true ∨ a = .mark i ∧ k = .baseline) →
      ((∀ run, (f run).status ≠ .succeeded) ∨ E.succeeds a = some (i, k)) →
      RunsMove E w a i phase phase' (Function.update w.runs k ((w.runs k).map f))

inductive SupportingMoves (E : SupportingEnv D O C) (w : SupportingWorld D O C) (a : SupportingAct D C)
    (w' : SupportingWorld D O C) : Prop
  | deliver {service : SupportingExtractor} {retries : ℕ} : w'.runs = w.runs →
      w'.deliveries = w.deliveries ++ [⟨service, retries, .begun⟩] → SupportingMoves E w a w'
  | move {i : ℕ} {d : Delivery D O C} {phase : DeliveryPhase D O C} : w.deliveries[i]? = some d →
      w'.deliveries = w.deliveries.set i { d with phase := phase } → RunsMove E w a i d.phase phase w'.runs →
      SupportingMoves E w a w'

theorem SupportingMoves.of_read {phase : DeliveryPhase D O C} (hd : w.deliveries[i]? = some d)
    (hdeliveries : w'.deliveries = w.deliveries.set i { d with phase := phase }) (hruns : w'.runs = w.runs)
    (hpast : ∀ k, phase.pastCheck k = true → d.phase.pastCheck k = true) : SupportingMoves E w a w' :=
  .move hd hdeliveries (hruns ▸ .read fun k hk => .inl (hpast k hk))

theorem pastCheck_afterBaseline (k : SupportingExtractor) (output : Option O) :
    (d.afterBaseline output).pastCheck k = false := by
  unfold Delivery.afterBaseline
  split
  · rfl
  · rfl

theorem moves_checkRun {k : SupportingExtractor} {working : DeliveryPhase D O C}
    {served : SupportingExtractionRun O → DeliveryPhase D O C} (hd : w.deliveries[i]? = some d)
    (hworking : ∀ k', working.pastCheck k' = true → k' = k) (hserved : ∀ run k', (served run).pastCheck k' = false) :
    SupportingMoves E w a (w.checkRun i d k working served) := by
  unfold SupportingWorld.checkRun
  cases hrun : w.runs k with
  | none => exact .move hd rfl (.create hrun hworking)
  | some run =>
    refine .move hd rfl (.read fun k' hk' => ?_)
    split_ifs at hk' with hstatus
    · rw [hserved] at hk'
      cases hk'
    · obtain rfl := hworking k' hk'
      exact .inr ⟨run, hrun, hstatus⟩

theorem moves_complete {text : Except ExtractionError D} (hd : w.deliveries[i]? = some d)
    (hphase : d.phase = .extracting) : SupportingMoves E w (.complete i text) (w.complete E i d text) := by
  have hpast : d.phase.pastCheck .baseline = true := by rw [hphase]; rfl
  have hextracts : ∀ t output, text.bind (fun t => (E.extract t).map fun output => (t, output)) = .ok (t, output) →
      E.extracts text = true := by
    intro t output h
    cases text with
    | error e => cases h
    | ok t' =>
      have h : (E.extract t').map (fun output => (t', output)) = .ok (t, output) := h
      have heq : E.extracts (.ok t') = (E.extract t').isOk := rfl
      rw [heq]
      cases hx : E.extract t' with
      | error e =>
        rw [hx] at h
        cases h
      | ok output' => rfl
  unfold SupportingWorld.complete
  split
  · next t output hok =>
    refine .move hd rfl (.update (fun k => pastCheck_afterBaseline k _) (.inl hpast) (.inr ?_))
    simp only [SupportingEnv.succeeds, hextracts t output hok, if_true]
  · refine .move hd rfl (.update (fun _ => rfl) (.inl hpast) (.inl fun run hrun => ?_))
    cases hrun

theorem moves_search {output : Option O} (hd : w.deliveries[i]? = some d) :
    SupportingMoves E w a (w.search i d output) := by
  unfold SupportingWorld.search
  cases output with
  | none => exact .of_read hd rfl rfl fun _ hk => by cases hk
  | some baseline =>
    cases hrun : w.runs .hybrid with
    | none => exact .of_read hd rfl rfl fun k hk => by simp [DeliveryPhase.pastCheck] at hk
    | some run =>
      refine .move hd rfl (.read fun k hk => ?_)
      split_ifs at hk with hstatus
      · cases hk
      · obtain rfl : k = .hybrid := by simpa [DeliveryPhase.pastCheck] using hk
        exact .inr ⟨run, hrun, hstatus⟩

theorem moves_route {baseline : O} {loaded : Bool} {text : Except ExtractionError D} (hd : w.deliveries[i]? = some d)
    (hphase : d.phase = .searched baseline loaded) :
    SupportingMoves E w a (w.route E i d baseline loaded text) := by
  unfold SupportingWorld.route
  split
  · exact .of_read hd rfl rfl fun _ hk => by cases hk
  · split
    · exact .of_read hd rfl rfl fun _ hk => by cases hk
    · exact .of_read hd rfl rfl fun k hk => by rw [hphase]; exact hk

theorem moves_openRun {baseline : O} {text : D} {reasons : List String} {loaded : Bool}
    (hd : w.deliveries[i]? = some d) (hphase : d.phase = .routed baseline text reasons loaded) :
    SupportingMoves E w a (w.openRun i d baseline text reasons loaded) := by
  unfold SupportingWorld.openRun
  split_ifs with hloaded
  · subst hloaded
    refine .of_read hd rfl rfl fun k hk => ?_
    rw [hphase]
    simpa [DeliveryPhase.pastCheck] using hk
  · refine moves_checkRun hd (fun k hk => ?_) fun _ _ => rfl
    simpa [DeliveryPhase.pastCheck] using hk

theorem moves_openCall {baseline : O} {text : D} {reasons : List String} (hd : w.deliveries[i]? = some d)
    (hphase : d.phase = .opened baseline text reasons) :
    SupportingMoves E w a (w.openCall E i d baseline text reasons) := by
  unfold SupportingWorld.openCall
  split
  · exact .of_read hd rfl rfl fun k hk => by rw [hphase]; exact hk
  · exact .of_read hd rfl rfl fun k hk => by rw [hphase]; exact hk

theorem moves_lockCall {baseline : O} {text : D} {reasons : List String} (hd : w.deliveries[i]? = some d)
    (hphase : d.phase = .calling baseline text reasons) (h : w.lockCall E i d baseline text reasons = some w') :
    SupportingMoves E w a w' := by
  unfold SupportingWorld.lockCall at h
  split_ifs at h with hlock
  split at h
  · obtain rfl := Option.some.inj h
    exact .of_read hd rfl rfl fun _ hk => by cases hk
  · obtain rfl := Option.some.inj h
    exact .of_read hd rfl rfl fun k hk => by rw [hphase]; exact hk

theorem moves_answer {baseline : O} {text : D} {reasons : List String} {call : SupportingModelCall C}
    {response : Except String C} (hd : w.deliveries[i]? = some d)
    (hphase : d.phase = .locked baseline text reasons call) :
    SupportingMoves E w a (w.answer E i d baseline text reasons call response) := by
  have hpast : ∀ output usedOcr k, (DeliveryPhase.writing output usedOcr : DeliveryPhase D O C).pastCheck k = true →
      d.phase.pastCheck k = true := by
    intro output usedOcr k hk
    rw [hphase]
    exact hk
  unfold SupportingWorld.answer
  split
  · exact .of_read hd rfl rfl (hpast _ _)
  · exact .of_read hd rfl rfl (hpast _ _)
  · split
    · exact .of_read hd rfl rfl (hpast _ _)
    · exact .of_read hd rfl rfl (hpast _ _)
    · exact .of_read hd rfl rfl (hpast _ _)

theorem moves_retry (hd : w.deliveries[i]? = some d) : SupportingMoves E w a (w.retry i d) := by
  unfold SupportingWorld.retry
  split_ifs
  · exact moves_checkRun hd (fun _ hk => by cases hk) fun _ _ => rfl
  · exact .of_read hd rfl rfl fun _ hk => by cases hk

theorem supportingMoves_of_next (h : w.next E a = some w') : SupportingMoves E w a w' := by
  cases a with
  | deliver service retries =>
    simp only [SupportingWorld.next] at h
    split_ifs at h
    exact Option.some.inj h ▸ .deliver rfl rfl
  | check i =>
    obtain ⟨d, hd, h⟩ := Option.bind_eq_some_iff.1 h
    split at h
    · refine Option.some.inj h ▸ moves_checkRun hd (fun k hk => ?_) fun run k => pastCheck_afterBaseline k _
      simpa [DeliveryPhase.pastCheck] using hk
    · cases h
  | complete i text =>
    obtain ⟨d, hd, h⟩ := Option.bind_eq_some_iff.1 h
    split at h
    · next hphase => exact Option.some.inj h ▸ moves_complete hd hphase
    · cases h
  | search i =>
    obtain ⟨d, hd, h⟩ := Option.bind_eq_some_iff.1 h
    split at h
    · exact Option.some.inj h ▸ moves_search hd
    · cases h
  | route i text =>
    obtain ⟨d, hd, h⟩ := Option.bind_eq_some_iff.1 h
    split at h
    · next hphase => exact Option.some.inj h ▸ moves_route hd hphase
    · cases h
  | openRun i =>
    obtain ⟨d, hd, h⟩ := Option.bind_eq_some_iff.1 h
    split at h
    · next hphase => exact Option.some.inj h ▸ moves_openRun hd hphase
    · cases h
  | openCall i =>
    obtain ⟨d, hd, h⟩ := Option.bind_eq_some_iff.1 h
    split at h
    · next hphase => exact Option.some.inj h ▸ moves_openCall hd hphase
    · cases h
  | lockCall i =>
    obtain ⟨d, hd, h⟩ := Option.bind_eq_some_iff.1 h
    split at h
    · next hphase => exact moves_lockCall hd hphase h
    · cases h
  | answer i response =>
    obtain ⟨d, hd, h⟩ := Option.bind_eq_some_iff.1 h
    split at h
    · next hphase => exact Option.some.inj h ▸ moves_answer hd hphase
    · cases h
  | write i =>
    obtain ⟨d, hd, h⟩ := Option.bind_eq_some_iff.1 h
    split at h
    · next hphase =>
      refine Option.some.inj h ▸ .move hd rfl (.update (fun _ => rfl) (.inl ?_) (.inr rfl))
      rw [hphase]
      rfl
    · cases h
  | raise i =>
    obtain ⟨d, hd, h⟩ := Option.bind_eq_some_iff.1 h
    split_ifs at h
    exact Option.some.inj h ▸ .of_read hd rfl rfl fun _ hk => by cases hk
  | retry i =>
    obtain ⟨d, hd, h⟩ := Option.bind_eq_some_iff.1 h
    split at h
    · exact Option.some.inj h ▸ moves_retry hd
    · cases h
  | mark i =>
    obtain ⟨d, hd, h⟩ := Option.bind_eq_some_iff.1 h
    split at h
    · refine Option.some.inj h ▸ .move hd rfl (.update (fun _ => rfl) (.inr ⟨rfl, rfl⟩) (.inl fun run hrun => ?_))
      cases hrun
    · cases h
  | lose i =>
    obtain ⟨d, hd, h⟩ := Option.bind_eq_some_iff.1 h
    exact Option.some.inj h ▸ .of_read hd rfl rfl fun _ hk => by cases hk

end

/-- Every run that has succeeded keeps its status and its output. -/
def SucceededKept {D O C : Type} (w w' : SupportingWorld D O C) : Prop :=
  ∀ k run, w.runs k = some run → run.status = .succeeded →
    ∃ run', w'.runs k = some run' ∧ run'.status = .succeeded ∧ run'.outputJson = run.outputJson

/-- No delivery but that of `i` stands between its check of the run of `k` and its write. -/
def SupportingWorld.Alone {D O C : Type} (w : SupportingWorld D O C) (i : ℕ) (k : SupportingExtractor) : Prop :=
  ∀ j < w.deliveries.length, j ≠ i → ∀ d ∈ w.deliveries[j]?, d.phase.pastCheck k = false

instance {D O C : Type} (w : SupportingWorld D O C) (i : ℕ) (k : SupportingExtractor) : Decidable (w.Alone i k) :=
  inferInstanceAs (Decidable (∀ j < w.deliveries.length, j ≠ i → ∀ d ∈ w.deliveries[j]?, d.phase.pastCheck k = false))

def SupportingAct.marks {D C : Type} : SupportingAct D C → Bool
  | .mark _ => true
  | _ => false

/-- A success is committed when no other delivery has checked the run before, and a failure is marked when the run
has not succeeded. -/
def SupportingEnv.Undisturbed {D O C : Type} (E : SupportingEnv D O C) (w : SupportingWorld D O C)
    (a : SupportingAct D C) : Prop :=
  (∀ c ∈ E.succeeds a, w.Alone c.1 c.2) ∧
    (a.marks = true → ∀ run ∈ w.runs .baseline, run.status ≠ .succeeded)

instance {D O C : Type} (E : SupportingEnv D O C) (w : SupportingWorld D O C) (a : SupportingAct D C) :
    Decidable (E.Undisturbed w a) :=
  inferInstanceAs (Decidable ((∀ c ∈ E.succeeds a, w.Alone c.1 c.2) ∧
    (a.marks = true → ∀ run ∈ w.runs .baseline, run.status ≠ .succeeded)))

section

variable {D O C : Type} {E : SupportingEnv D O C} {w w' : SupportingWorld D O C} {a : SupportingAct D C}

/-- While a run has succeeded, no delivery is about to write it. -/
def SupportingInv (w : SupportingWorld D O C) : Prop :=
  ∀ k run, w.runs k = some run → run.status = .succeeded → ∀ d ∈ w.deliveries, d.phase.pastCheck k = false

theorem SupportingInv.not_succeeded (h : SupportingInv w) {k : SupportingExtractor}
    {run : SupportingExtractionRun O} {d : Delivery D O C} (hrun : w.runs k = some run) (hd : d ∈ w.deliveries)
    (hpast : d.phase.pastCheck k = true) : run.status ≠ .succeeded := by
  intro hstatus
  rw [h k run hrun hstatus d hd] at hpast
  cases hpast

theorem SupportingInv.kept (h : SupportingInv w) (hC : E.Undisturbed w a) (hstep : SupportingMoves E w a w') :
    SucceededKept w w' := by
  have hsame : w'.runs = w.runs → SucceededKept w w' := by
    intro hruns k run hrun hstatus
    exact ⟨run, by rw [hruns]; exact hrun, hstatus, rfl⟩
  cases hstep with
  | deliver hruns => exact hsame hruns
  | @move i d phase hd _ hmove =>
    generalize hruns : w'.runs = runs at hmove
    cases hmove with
    | read => exact hsame hruns
    | @create k hnone =>
      intro k' run hrun hstatus
      have hne : k' ≠ k := by
        rintro rfl
        rw [hnone] at hrun
        cases hrun
      exact ⟨run, by rw [hruns, Function.update_of_ne hne]; exact hrun, hstatus, rfl⟩
    | @update k f _ hwrites _ =>
      intro k' run hrun hstatus
      have hne : k' ≠ k := by
        rintro rfl
        rcases hwrites with hpast | ⟨rfl, rfl⟩
        · exact h.not_succeeded hrun (List.mem_of_getElem? hd) hpast hstatus
        · exact hC.2 rfl run hrun hstatus
      exact ⟨run, by rw [hruns, Function.update_of_ne hne]; exact hrun, hstatus, rfl⟩

theorem SupportingInv.step (h : SupportingInv w) (hC : E.Undisturbed w a) (hstep : SupportingMoves E w a w') :
    SupportingInv w' := by
  cases hstep with
  | deliver hruns hdeliveries =>
    intro k run hrun hstatus d hd
    rw [hruns] at hrun
    rw [hdeliveries] at hd
    rcases List.mem_append.1 hd with hold | hnew
    · exact h k run hrun hstatus d hold
    · rw [List.mem_singleton.1 hnew]
      rfl
  | @move i d phase hd hdeliveries hmove =>
    have hmem := List.mem_of_getElem? hd
    -- the other deliveries stand where they did
    have hothers : ∀ d' ∈ w'.deliveries, d' = { d with phase := phase } ∨
        ∃ j < w.deliveries.length, j ≠ i ∧ w.deliveries[j]? = some d' := by
      intro d' hd'
      rw [hdeliveries] at hd'
      obtain ⟨j, hj⟩ := List.mem_iff_getElem?.1 hd'
      by_cases hji : i = j
      · subst hji
        rw [List.getElem?_set_self (List.getElem?_eq_some_iff.1 hd).1] at hj
        exact .inl (Option.some.inj hj).symm
      · rw [List.getElem?_set_ne hji] at hj
        exact .inr ⟨j, (List.getElem?_eq_some_iff.1 hj).1, Ne.symm hji, hj⟩
    generalize hruns : w'.runs = runs at hmove
    intro k run hrun hstatus d' hd'
    rw [hruns] at hrun
    cases hmove with
    | read hpast =>
      rcases hothers d' hd' with rfl | ⟨j, -, -, hj⟩
      · by_contra hk
        rcases hpast k (by simpa using hk) with hk | ⟨run', hrun', hnot⟩
        · exact h.not_succeeded hrun hmem hk hstatus
        · obtain rfl := Option.some.inj (hrun.symm.trans hrun')
          exact hnot hstatus
      · exact h k run hrun hstatus d' (List.mem_of_getElem? hj)
    | @create k₀ hnone hpast =>
      have hne : k ≠ k₀ := by
        rintro rfl
        rw [Function.update_self] at hrun
        obtain rfl := Option.some.inj hrun
        cases hstatus
      rw [Function.update_of_ne hne] at hrun
      rcases hothers d' hd' with rfl | ⟨j, -, -, hj⟩
      · by_contra hk
        exact hne (hpast k (by simpa using hk))
      · exact h k run hrun hstatus d' (List.mem_of_getElem? hj)
    | @update k₀ f hpast _ hsucceeds =>
      rcases hothers d' hd' with rfl | ⟨j, hlt, hji, hj⟩
      · exact hpast k
      · by_cases hk : k = k₀
        · subst hk
          rw [Function.update_self] at hrun
          obtain ⟨run₀, -, rfl⟩ := Option.map_eq_some_iff.1 hrun
          rcases hsucceeds with hnot | hsucceeds
          · exact absurd hstatus (hnot run₀)
          · exact hC.1 _ hsucceeds j hlt hji d' hj
        · rw [Function.update_of_ne hk] at hrun
          exact h k run hrun hstatus d' (List.mem_of_getElem? hj)

end

/-- Over every interleaving of deliveries, retries and failures in which no delivery completes a run that another
one has checked before and not written yet, and no failure is marked on a run that has succeeded: a run that has
succeeded keeps its status and its output. -/
theorem succeeded_kept {D O C : Type} (E : SupportingEnv D O C) {acts acts' : List (SupportingAct D C)}
    {w w' : SupportingWorld D O C}
    (h : Steps (restrict E.Undisturbed (SupportingWorld.next E)) (.initial D O C) acts w)
    (hlater : Steps (restrict E.Undisturbed (SupportingWorld.next E)) w acts' w') : SucceededKept w w' := by
  have hstep : ∀ s e t, SupportingInv s → restrict E.Undisturbed (SupportingWorld.next E) s e = some t →
      SupportingInv t := by
    intro s e t hs hn
    obtain ⟨hC, hn⟩ := restrict_eq_some.1 hn
    exact hs.step hC (supportingMoves_of_next hn)
  have hinv : SupportingInv w := h.invariant hstep fun _ _ hrun => by cases hrun
  refine hlater.relates (R := SucceededKept) hstep (fun s k run hrun hstatus => ⟨run, hrun, hstatus, rfl⟩) ?_ ?_ hinv
  · intro s t u hst htu k run hrun hstatus
    obtain ⟨run₁, hrun₁, hstatus₁, houtput₁⟩ := hst k run hrun hstatus
    obtain ⟨run₂, hrun₂, hstatus₂, houtput₂⟩ := htu k run₁ hrun₁ hstatus₁
    exact ⟨run₂, hrun₂, hstatus₂, houtput₂.trans houtput₁⟩
  · intro s e t hs hn
    obtain ⟨hC, hn⟩ := restrict_eq_some.1 hn
    exact hs.kept hC (supportingMoves_of_next hn)

/-- Documents are texts, and outputs their first lines; the model is always asked. -/
def noteEnv : SupportingEnv String String String where
  extract text := if text = "" then .error .unreadableDocument else .ok text
  usedOcr _ := false
  route _ _ := ["NO_LINE_ITEMS"]
  fingerprint reasons := reasons.headD ""
  fuse _ candidate _ := some candidate

/-- A delivery extracts the note, and the message is delivered again. -/
def noteActs : List (SupportingAct String String) :=
  [.deliver .baseline 0, .check 0, .complete 0 (.ok "Delivery note 7"), .deliver .baseline 0]

theorem succeeded_kept_note :
    ∃ w w', Steps (restrict noteEnv.Undisturbed (SupportingWorld.next noteEnv)) (.initial _ _ _) noteActs w ∧
      Steps (restrict noteEnv.Undisturbed (SupportingWorld.next noteEnv)) w [.check 1] w' ∧
      (w.runs .baseline).map (·.status) = some .succeeded ∧ SucceededKept w w' := by
  have hexec : (exec (restrict noteEnv.Undisturbed (SupportingWorld.next noteEnv)) (.initial _ _ _) noteActs).any
      (fun w => (w.runs .baseline).map (·.status) = some .succeeded ∧
        (exec (restrict noteEnv.Undisturbed (SupportingWorld.next noteEnv)) w [.check 1]).isSome) = true := by
    decide +kernel
  obtain ⟨w, hw, hexec⟩ := (Option.any_eq_true _ _).1 hexec
  obtain ⟨hstatus, hsome⟩ := of_decide_eq_true hexec
  obtain ⟨w', hw'⟩ := Option.isSome_iff_exists.1 hsome
  exact ⟨w, w', .of_exec hw, .of_exec hw', hstatus, succeeded_kept noteEnv (.of_exec hw) (.of_exec hw')⟩

/-- The hybrid service extracts the note, and cannot go on: the object store is gone before the model is asked. -/
def outageActs : List (SupportingAct String String) :=
  [.deliver .hybrid 0, .check 0, .complete 0 (.ok "Delivery note 7"), .search 0]

/-- The task is retried until the failure is marked. -/
def retryActs : List (SupportingAct String String) :=
  [.raise 0, .retry 0, .deliver .hybrid 1, .check 1, .search 1, .raise 1, .retry 1, .deliver .hybrid 2, .check 2,
    .search 2, .raise 2, .retry 2, .deliver .hybrid 3, .check 3, .search 3, .raise 3, .retry 3, .mark 3]

/-- The output of the run that has succeeded is gone. -/
theorem outage_marks_succeeded :
    ∃ w w', Steps (SupportingWorld.next noteEnv) (.initial _ _ _) outageActs w ∧
      Steps (SupportingWorld.next noteEnv) w retryActs w' ∧
      (w.runs .baseline).map (fun run => (run.status, run.outputJson)) = some (.succeeded, some "Delivery note 7") ∧
      (w'.runs .baseline).map (fun run => (run.status, run.outputJson)) = some (.failed, none) ∧
      ¬ SucceededKept w w' := by
  have hexec : (exec (SupportingWorld.next noteEnv) (.initial _ _ _) outageActs).any
      (fun w => (w.runs .baseline).map (fun run => (run.status, run.outputJson)) =
          some (.succeeded, some "Delivery note 7") ∧
        (exec (SupportingWorld.next noteEnv) w retryActs).any fun w' =>
          (w'.runs .baseline).map (fun run => (run.status, run.outputJson)) = some (.failed, none)) = true := by
    decide +kernel
  obtain ⟨w, hw, hexec⟩ := (Option.any_eq_true _ _).1 hexec
  obtain ⟨hbefore, hexec⟩ := of_decide_eq_true hexec
  obtain ⟨w', hw', hafter⟩ := (Option.any_eq_true _ _).1 hexec
  have hafter := of_decide_eq_true hafter
  refine ⟨w, w', .of_exec hw, .of_exec hw', hbefore, hafter, fun hkept => ?_⟩
  obtain ⟨run, hrun, heq⟩ := Option.map_eq_some_iff.1 hbefore
  obtain ⟨run', hrun', hstatus, -⟩ := hkept .baseline run hrun (Prod.mk.inj heq).1
  rw [hrun', Option.map_some] at hafter
  rw [(Prod.mk.inj (Option.some.inj hafter)).1] at hstatus
  cases hstatus

end InvoiceOps
