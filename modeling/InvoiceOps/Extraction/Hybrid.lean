import InvoiceOps.Extraction.Supporting

/-! The extraction of an invoice (`extraction/service.py`, `extraction/hybrid/service.py`). The state holds the
baseline run and the hybrid run of one document, the calls of the vision model that belong to the hybrid run, and
the deliveries of the job, which take their steps in any order. Some updates leave a row that has succeeded alone,
some do not. -/

namespace InvoiceOps

open StateMachine

inductive ExtractionRunStatus
  | processing
  | succeeded
  | failed
deriving DecidableEq, Repr

/-- The two services; each has a run of its own, and the hybrid service calls the baseline service first. -/
inductive InvoiceExtractor
  | baseline
  | hybrid
deriving DecidableEq, Repr

structure InvoiceExtractionRun (O : Type) where
  status : ExtractionRunStatus
  outputJson : Option O
  usedOcr : Option Bool
  errorCode : Option String
  errorMessage : Option String
deriving DecidableEq, Repr

structure ModelCall (C : Type) where
  status : ModelCallStatus
  candidateJson : Option C
  errorCode : Option String
deriving DecidableEq, Repr

/-- The functions of a document with text `D` the services work with: invoices `O`, and candidates `C` of the model. -/
structure InvoiceEnv (D O C : Type) where
  /-- The invoice extractor, validated. -/
  extract : D → Except ExtractionError O
  usedOcr : D → Bool
  /-- `route_extraction`: the reasons to ask the model, none of them when it is not asked. -/
  route : O → D → List String
  /-- The request fingerprint of a routing. -/
  fingerprint : O → D → String
  /-- The invoice of `fuse_invoice`. -/
  fuse : O → C → D → O

inductive InvoicePhase (D O C : Type)
  | begun
  /-- The baseline run was `FAILED`, and is to be marked. -/
  | restarting
  /-- The baseline run is marked, and is to be read again. -/
  | restarted
  | extracting
  /-- The baseline run has been completed, and is to be read again. -/
  | completed
  /-- The baseline service has returned, with the output of its run. -/
  | extracted (output : Option O)
  /-- The hybrid run was `FAILED`, and is to be marked. -/
  | reopening (baseline : O)
  | opened (baseline : O)
  | routed (baseline : O) (text : D)
  /-- The call of the routing, as it was read. -/
  | calling (baseline : O) (text : D) (call : ModelCall C)
  | writing (output : O) (usedOcr : Bool)
  | ended

structure InvoiceDelivery (D O C : Type) where
  service : InvoiceExtractor
  phase : InvoicePhase D O C

structure InvoiceWorld (D O C : Type) where
  runs : InvoiceExtractor → Option (InvoiceExtractionRun O)
  calls : String → Option (ModelCall C)
  deliveries : List (InvoiceDelivery D O C)

def InvoiceWorld.initial (D O C : Type) : InvoiceWorld D O C := ⟨fun _ => none, fun _ => none, []⟩

/-- A step of a delivery, with what it is told by the object store, the text extractor or the provider. -/
inductive InvoiceAct (D C : Type)
  | deliver (service : InvoiceExtractor)
  | check (i : ℕ)
  | markProcessing (i : ℕ)
  | refresh (i : ℕ)
  | complete (i : ℕ) (text : Except ExtractionError D)
  | require (i : ℕ)
  | openRun (i : ℕ)
  | reopenRun (i : ℕ)
  | read (i : ℕ) (text : Except ExtractionError D)
  | openCall (i : ℕ)
  | answer (i : ℕ) (response : Except String C)
  | write (i : ℕ)
  /-- An exception or the end of the worker. -/
  | lose (i : ℕ)

section

variable {D O C : Type} (E : InvoiceEnv D O C) (w : InvoiceWorld D O C) (i : ℕ) (d : InvoiceDelivery D O C)

/-- The run as `_get_or_create_run` inserts it. -/
def InvoiceExtractionRun.created (O : Type) : InvoiceExtractionRun O := ⟨.processing, none, none, none, none⟩

def InvoiceExtractionRun.succeed (output : O) (usedOcr : Bool) : InvoiceExtractionRun O :=
  ⟨.succeeded, some output, some usedOcr, none, none⟩

/-- `_mark_terminal_failure` of the baseline service. -/
def InvoiceExtractionRun.fail (e : ExtractionError) : InvoiceExtractionRun O :=
  ⟨.failed, none, none, some (extractionErrorCode e), some (safeExtractionErrorMessage e)⟩

/-- `_mark_terminal_failure` of the hybrid service, which leaves the output as it is. -/
def InvoiceExtractionRun.failHybrid (run : InvoiceExtractionRun O) (e : ExtractionError) : InvoiceExtractionRun O :=
  { run with
    status := .failed
    errorCode := some (extractionErrorCode e)
    errorMessage := some (safeExtractionErrorMessage e) }

/-- `_mark_processing` of the hybrid service. -/
def InvoiceExtractionRun.reopen (run : InvoiceExtractionRun O) : InvoiceExtractionRun O :=
  { run with status := .processing, outputJson := none, errorCode := none, errorMessage := none }

def InvoiceWorld.enter (phase : InvoicePhase D O C) : InvoiceWorld D O C :=
  { w with deliveries := w.deliveries.set i { d with phase := phase } }

/-- An update by the id of the run, whatever its status is. -/
def InvoiceWorld.updateRun (k : InvoiceExtractor) (f : InvoiceExtractionRun O → InvoiceExtractionRun O) :
    InvoiceWorld D O C :=
  { w with runs := Function.update w.runs k ((w.runs k).map f) }

def InvoiceWorld.updateOpenRun (k : InvoiceExtractor) (f : InvoiceExtractionRun O → InvoiceExtractionRun O) :
    InvoiceWorld D O C :=
  w.updateRun k fun run => if run.status = .succeeded then run else f run

def InvoiceWorld.storeCall (fingerprint : String) (call : ModelCall C) : InvoiceWorld D O C :=
  { w with calls := Function.update w.calls fingerprint (some call) }

/-- `_finish_call`: a call that has succeeded is left alone. -/
def InvoiceWorld.finishCall (fingerprint : String) (call : ModelCall C) : InvoiceWorld D O C :=
  match w.calls fingerprint with
  | none => w
  | some stored => if stored.status = .succeeded then w else w.storeCall fingerprint call

/-- What follows the baseline service: the hybrid service goes on with the output. -/
def InvoiceDelivery.afterBaseline (output : Option O) : InvoicePhase D O C :=
  match d.service with
  | .baseline => .ended
  | .hybrid => .extracted output

/-- `_get_or_create_run`, and what is done next by the status it has read. -/
def InvoiceWorld.checkRun (k : InvoiceExtractor) (working failed : InvoicePhase D O C)
    (served : InvoiceExtractionRun O → InvoicePhase D O C) : InvoiceWorld D O C :=
  match w.runs k with
  | none => InvoiceWorld.enter { w with runs := Function.update w.runs k (some (.created O)) } i d working
  | some run =>
    match run.status with
    | .succeeded => w.enter i d (served run)
    | .processing => w.enter i d working
    | .failed => w.enter i d failed

/-- The run is read again after `_mark_processing`; only the baseline service asks for its status. -/
def InvoiceWorld.refresh : InvoiceWorld D O C :=
  match w.runs .baseline with
  | none => w.enter i d .ended
  | some run => w.enter i d (if run.status = .succeeded then d.afterBaseline run.outputJson else .extracting)

/-- `ExtractionService.process` after its check. -/
def InvoiceWorld.complete (text : Except ExtractionError D) : InvoiceWorld D O C :=
  match text.bind fun t => (E.extract t).map fun output => (t, output) with
  | .ok (t, output) =>
    (w.updateRun .baseline fun _ => .succeed output (E.usedOcr t)).enter i d .completed
  | .error e => (w.updateOpenRun .baseline fun _ => .fail e).enter i d .ended

/-- `_require_run`. -/
def InvoiceWorld.require : InvoiceWorld D O C :=
  match w.runs .baseline with
  | none => w.enter i d .ended
  | some run => w.enter i d (d.afterBaseline run.outputJson)

/-- `HybridExtractionService.process`: the baseline is validated, and the run is looked for or created. -/
def InvoiceWorld.openRun (output : Option O) : InvoiceWorld D O C :=
  match output with
  | none => w.enter i d .ended
  | some baseline => w.checkRun i d .hybrid (.opened baseline) (.reopening baseline) fun _ => .ended

/-- The text of the document; a document that cannot be read is a failure of the run. -/
def InvoiceWorld.read (baseline : O) (text : Except ExtractionError D) : InvoiceWorld D O C :=
  match text with
  | .error e => (w.updateRun .hybrid (·.failHybrid e)).enter i d .ended
  | .ok t => w.enter i d (.routed baseline t)

/-- `_get_or_create_call`. -/
def InvoiceWorld.openCall (baseline : O) (text : D) : InvoiceWorld D O C :=
  match w.calls (E.fingerprint baseline text) with
  | some call => w.enter i d (.calling baseline text call)
  | none =>
    (w.storeCall (E.fingerprint baseline text) ⟨.processing, none, none⟩).enter i d
      (.calling baseline text ⟨.processing, none, none⟩)

/-- The candidate a call that was read is replayed with. -/
def ModelCall.replayed (call : ModelCall C) : Option C := if call.status = .succeeded then call.candidateJson else none

/-- The model is asked when there is a reason to, and neither an answer nor a failure was read. -/
def InvoiceEnv.asks (baseline : O) (text : D) (call : ModelCall C) : Bool :=
  decide (E.route baseline text ≠ []) && call.replayed.isNone && decide (call.status ≠ .failed)

/-- The call is skipped, replayed, left failed or made; the output of a call that was made is the fusion with the
answer. -/
def InvoiceWorld.answer (baseline : O) (text : D) (call : ModelCall C) (response : Except String C) :
    InvoiceWorld D O C :=
  let fingerprint := E.fingerprint baseline text
  let usedOcr := E.usedOcr text
  if E.asks baseline text call then
    match response with
    | .ok candidate =>
      (w.finishCall fingerprint ⟨.succeeded, some candidate, none⟩).enter i d
        (.writing (E.fuse baseline candidate text) usedOcr)
    | .error code =>
      (w.finishCall fingerprint ⟨.failed, none, some code⟩).enter i d (.writing baseline usedOcr)
  else if E.route baseline text = [] then
    (w.finishCall fingerprint ⟨.skipped, none, none⟩).enter i d (.writing baseline usedOcr)
  else
    match call.replayed with
    | some candidate => w.enter i d (.writing (E.fuse baseline candidate text) usedOcr)
    | none => w.enter i d (.writing baseline usedOcr)

/-- One step. A step that its delivery is not ready for is not enabled. -/
def InvoiceWorld.next : InvoiceAct D C → Option (InvoiceWorld D O C)
  | .deliver service => some { w with deliveries := w.deliveries ++ [⟨service, .begun⟩] }
  | .check i => w.deliveries[i]?.bind fun d =>
    match d.phase with
    | .begun => some (w.checkRun i d .baseline .extracting .restarting fun run => d.afterBaseline run.outputJson)
    | _ => none
  | .markProcessing i => w.deliveries[i]?.bind fun d =>
    match d.phase with
    | .restarting => some ((w.updateOpenRun .baseline fun _ => .created O).enter i d .restarted)
    | _ => none
  | .refresh i => w.deliveries[i]?.bind fun d =>
    match d.phase with
    | .restarted => some (w.refresh i d)
    | _ => none
  | .complete i text => w.deliveries[i]?.bind fun d =>
    match d.phase with
    | .extracting => some (w.complete E i d text)
    | _ => none
  | .require i => w.deliveries[i]?.bind fun d =>
    match d.phase with
    | .completed => some (w.require i d)
    | _ => none
  | .openRun i => w.deliveries[i]?.bind fun d =>
    match d.phase with
    | .extracted output => some (w.openRun i d output)
    | _ => none
  | .reopenRun i => w.deliveries[i]?.bind fun d =>
    match d.phase with
    | .reopening baseline => some ((w.updateOpenRun .hybrid (·.reopen)).enter i d (.opened baseline))
    | _ => none
  | .read i text => w.deliveries[i]?.bind fun d =>
    match d.phase with
    | .opened baseline => some (w.read i d baseline text)
    | _ => none
  | .openCall i => w.deliveries[i]?.bind fun d =>
    match d.phase with
    | .routed baseline text => some (w.openCall E i d baseline text)
    | _ => none
  | .answer i response => w.deliveries[i]?.bind fun d =>
    match d.phase with
    | .calling baseline text call => some (w.answer E i d baseline text call response)
    | _ => none
  | .write i => w.deliveries[i]?.bind fun d =>
    match d.phase with
    | .writing output usedOcr => some ((w.updateRun .hybrid fun _ => .succeed output usedOcr).enter i d .ended)
    | _ => none
  | .lose i => w.deliveries[i]?.bind fun d => some (w.enter i d .ended)

end

section

variable {D O C : Type} (E : InvoiceEnv D O C) (P : D → Prop) (w w' : InvoiceWorld D O C)

/-- The runs and the calls that have succeeded are kept as they are, and no row is deleted. -/
structure InvoiceWorld.Grows : Prop where
  rows : ∀ k, (w.runs k).isSome → (w'.runs k).isSome
  callRows : ∀ f, (w.calls f).isSome → (w'.calls f).isSome
  runs : ∀ k run, w.runs k = some run → run.status = .succeeded → w'.runs k = some run
  calls : ∀ f call, w.calls f = some call → call.status = .succeeded → w'.calls f = some call

/-- The output of the baseline run, which has succeeded. -/
def InvoiceWorld.Baseline (baseline : O) : Prop :=
  ∃ run, w.runs .baseline = some run ∧ run.status = .succeeded ∧ run.outputJson = some baseline

/-- The candidate of the call of a routing, which has succeeded. -/
def InvoiceWorld.Candidate (baseline : O) (text : D) (candidate : C) : Prop :=
  ∃ call, w.calls (E.fingerprint baseline text) = some call ∧ call.status = .succeeded ∧
    call.candidateJson = some candidate

/-- The output of the baseline run, or its fusion with a stored candidate for a text satisfying `P`. -/
def InvoiceWorld.Explained (output : O) : Prop :=
  ∃ baseline, w.Baseline baseline ∧ (output = baseline ∨
    ∃ text candidate, P text ∧ w.Candidate E baseline text candidate ∧ output = E.fuse baseline candidate text)

def InvoiceWorld.PhaseOk : InvoicePhase D O C → Prop
  | .restarting | .restarted | .extracting => (w.runs .baseline).isSome
  | .completed => ∃ run, w.runs .baseline = some run ∧ run.status = .succeeded
  | .extracted output => ∀ baseline, output = some baseline → w.Baseline baseline
  | .reopening baseline | .opened baseline => w.Baseline baseline
  | .routed baseline text => w.Baseline baseline ∧ P text
  | .calling baseline text call => w.Baseline baseline ∧ P text ∧ (w.calls (E.fingerprint baseline text)).isSome ∧
      (call.status = .succeeded → w.calls (E.fingerprint baseline text) = some call)
  | .writing output _ => w.Explained E P output
  | _ => True

structure InvoiceInv : Prop where
  hybrid : ∀ run, w.runs .hybrid = some run → run.status = .succeeded →
    ∃ output, run.outputJson = some output ∧ w.Explained E P output
  phases : ∀ d ∈ w.deliveries, w.PhaseOk E P d.phase

structure InvoiceStep : Prop where
  inv : InvoiceInv E P w'
  grows : w.Grows w'

def InvoiceWorld.Open (k : InvoiceExtractor) : Prop := ∀ run ∈ w.runs k, run.status ≠ .succeeded

/-- The fingerprint a delivery asks the model for. -/
def InvoiceWorld.asked (i : ℕ) : Option String :=
  w.deliveries[i]?.bind fun d =>
    match d.phase with
    | .calling baseline text call => if E.asks baseline text call then some (E.fingerprint baseline text) else none
    | _ => none

/-- A success, or a failure of the hybrid run, is written to a run that has not succeeded yet; and the model answers a
delivery whose call has not succeeded yet. -/
def InvoiceEnv.FirstWrite : InvoiceAct D C → Prop
  | .complete _ text => (text.bind E.extract).isOk = true → w.Open .baseline
  | .read _ text => text.isOk = false → w.Open .hybrid
  | .write _ => w.Open .hybrid
  | .answer i response => response.isOk = true → ∀ f ∈ w.asked E i, ∀ call ∈ w.calls f, call.status ≠ .succeeded
  | _ => True

end

instance {D O C : Type} (w : InvoiceWorld D O C) (k : InvoiceExtractor) : Decidable (w.Open k) :=
  inferInstanceAs (Decidable (∀ run ∈ w.runs k, run.status ≠ .succeeded))

instance {D O C : Type} (E : InvoiceEnv D O C) (w : InvoiceWorld D O C) (a : InvoiceAct D C) :
    Decidable (E.FirstWrite w a) :=
  match a with
  | .complete _ text => inferInstanceAs (Decidable ((text.bind E.extract).isOk = true → w.Open .baseline))
  | .read _ text => inferInstanceAs (Decidable (text.isOk = false → w.Open .hybrid))
  | .write _ => inferInstanceAs (Decidable (w.Open .hybrid))
  | .answer i response => inferInstanceAs (Decidable
      (response.isOk = true → ∀ f ∈ w.asked E i, ∀ call ∈ w.calls f, call.status ≠ .succeeded))
  | .deliver _ | .check _ | .markProcessing _ | .refresh _ | .require _ | .openRun _ | .reopenRun _ | .openCall _
  | .lose _ => .isTrue trivial

section

variable {D O C : Type} {E : InvoiceEnv D O C} {P : D → Prop} {w w' w'' : InvoiceWorld D O C} {i : ℕ}
  {d : InvoiceDelivery D O C} {k : InvoiceExtractor}

theorem InvoiceWorld.Grows.refl (w : InvoiceWorld D O C) : w.Grows w :=
  ⟨fun _ h => h, fun _ h => h, fun _ _ h _ => h, fun _ _ h _ => h⟩

theorem InvoiceWorld.Grows.trans (h : w.Grows w') (h' : w'.Grows w'') : w.Grows w'' where
  rows k hk := h'.rows k (h.rows k hk)
  callRows f hf := h'.callRows f (h.callRows f hf)
  runs k run hrun hstatus := h'.runs k run (h.runs k run hrun hstatus) hstatus
  calls f call hcall hstatus := h'.calls f call (h.calls f call hcall hstatus) hstatus

theorem InvoiceWorld.Baseline.mono {baseline : O} (h : w.Baseline baseline) (hgrows : w.Grows w') :
    w'.Baseline baseline := by
  obtain ⟨run, hrun, hstatus, houtput⟩ := h
  exact ⟨run, hgrows.runs .baseline run hrun hstatus, hstatus, houtput⟩

theorem InvoiceWorld.Explained.mono {output : O} (h : w.Explained E P output) (hgrows : w.Grows w') :
    w'.Explained E P output := by
  obtain ⟨baseline, hbaseline, houtput⟩ := h
  refine ⟨baseline, hbaseline.mono hgrows, houtput.imp_right ?_⟩
  rintro ⟨text, candidate, hP, ⟨call, hcall, hstatus, hcandidate⟩, rfl⟩
  exact ⟨text, candidate, hP, ⟨call, hgrows.calls _ call hcall hstatus, hstatus, hcandidate⟩, rfl⟩

theorem InvoiceWorld.PhaseOk.mono {phase : InvoicePhase D O C} (h : w.PhaseOk E P phase) (hgrows : w.Grows w') :
    w'.PhaseOk E P phase := by
  cases phase with
  | restarting => exact hgrows.rows .baseline h
  | restarted => exact hgrows.rows .baseline h
  | extracting => exact hgrows.rows .baseline h
  | completed =>
    obtain ⟨run, hrun, hstatus⟩ := h
    exact ⟨run, hgrows.runs .baseline run hrun hstatus, hstatus⟩
  | extracted output => exact fun baseline houtput => (h baseline houtput).mono hgrows
  | reopening baseline => exact InvoiceWorld.Baseline.mono h hgrows
  | opened baseline => exact InvoiceWorld.Baseline.mono h hgrows
  | routed baseline text => exact ⟨h.1.mono hgrows, h.2⟩
  | calling baseline text call =>
    refine ⟨h.1.mono hgrows, h.2.1, hgrows.callRows _ h.2.2.1, fun hstatus => ?_⟩
    exact hgrows.calls _ call (h.2.2.2 hstatus) hstatus
  | writing output usedOcr => exact InvoiceWorld.Explained.mono h hgrows
  | _ => trivial

theorem InvoiceInv.step_of (h : InvoiceInv E P w) {phase : InvoicePhase D O C}
    (hdeliveries : w'.deliveries = w.deliveries.set i { d with phase := phase }) (hgrows : w.Grows w')
    (hhybrid : ∀ run, w'.runs .hybrid = some run → run.status = .succeeded →
      w.runs .hybrid = some run ∨ ∃ output, run.outputJson = some output ∧ w'.Explained E P output)
    (hphase : w'.PhaseOk E P phase) : InvoiceStep E P w w' := by
  refine ⟨⟨fun run hrun hstatus => ?_, fun d' hd' => ?_⟩, hgrows⟩
  · rcases hhybrid run hrun hstatus with hold | hnew
    · obtain ⟨output, houtput, hexplained⟩ := h.hybrid run hold hstatus
      exact ⟨output, houtput, hexplained.mono hgrows⟩
    · exact hnew
  · rw [hdeliveries] at hd'
    rcases List.mem_or_eq_of_mem_set hd' with hold | rfl
    · exact (h.phases d' hold).mono hgrows
    · exact hphase

theorem grows_enter {phase : InvoicePhase D O C} : w.Grows (w.enter i d phase) :=
  ⟨fun _ h => h, fun _ h => h, fun _ _ h _ => h, fun _ _ h _ => h⟩

theorem InvoiceInv.enter (h : InvoiceInv E P w) {phase : InvoicePhase D O C} (hphase : w.PhaseOk E P phase) :
    InvoiceStep E P w (w.enter i d phase) :=
  h.step_of rfl grows_enter (fun _ hrun _ => .inl hrun) (hphase.mono grows_enter)

theorem runs_updateRun_self {f : InvoiceExtractionRun O → InvoiceExtractionRun O} :
    (w.updateRun k f).runs k = (w.runs k).map f := Function.update_self _ _ _

theorem runs_updateRun {f : InvoiceExtractionRun O → InvoiceExtractionRun O} {k' : InvoiceExtractor}
    {run : InvoiceExtractionRun O} (h : (w.updateRun k f).runs k' = some run) :
    w.runs k' = some run ∨ k' = k ∧ ∃ run₀, w.runs k = some run₀ ∧ run = f run₀ := by
  by_cases hk : k' = k
  · subst hk
    rw [runs_updateRun_self] at h
    obtain ⟨run₀, hrun₀, rfl⟩ := Option.map_eq_some_iff.1 h
    exact .inr ⟨rfl, run₀, hrun₀, rfl⟩
  · exact .inl ((Function.update_of_ne hk _ _).symm.trans h)

theorem grows_updateRun {f : InvoiceExtractionRun O → InvoiceExtractionRun O}
    (h : ∀ run, w.runs k = some run → run.status = .succeeded → f run = run) : w.Grows (w.updateRun k f) := by
  refine ⟨fun k' hk' => ?_, fun _ h => h, fun k' run hrun hstatus => ?_, fun _ _ hcall _ => hcall⟩
  · by_cases hk : k' = k
    · subst hk
      rw [runs_updateRun_self, Option.isSome_map]
      exact hk'
    · exact (congrArg Option.isSome (Function.update_of_ne hk _ w.runs)).trans hk'
  by_cases hk : k' = k
  · subst hk
    rw [runs_updateRun_self, hrun, Option.map_some, h run hrun hstatus]
  · exact (Function.update_of_ne hk _ _).trans hrun

theorem grows_of_open {f : InvoiceExtractionRun O → InvoiceExtractionRun O} (h : w.Open k) :
    w.Grows (w.updateRun k f) :=
  grows_updateRun fun run hrun hstatus => absurd hstatus (h run hrun)

theorem grows_updateOpenRun {f : InvoiceExtractionRun O → InvoiceExtractionRun O} : w.Grows (w.updateOpenRun k f) :=
  grows_updateRun fun _ _ hstatus => if_pos hstatus

theorem InvoiceInv.updateRun (h : InvoiceInv E P w) {f : InvoiceExtractionRun O → InvoiceExtractionRun O}
    {phase : InvoicePhase D O C} (hgrows : w.Grows (w.updateRun k f))
    (hnew : k = .hybrid → ∀ run, (f run).status = .succeeded →
      f run = run ∨ ∃ output, (f run).outputJson = some output ∧ w.Explained E P output)
    (hphase : (w.updateRun k f).PhaseOk E P phase) : InvoiceStep E P w ((w.updateRun k f).enter i d phase) := by
  refine h.step_of rfl (hgrows.trans grows_enter) (fun run hrun hstatus => ?_) (hphase.mono grows_enter)
  rcases runs_updateRun hrun with hold | ⟨hk, run₀, hrun₀, rfl⟩
  · exact .inl hold
  · rcases hnew hk.symm run₀ hstatus with hsame | ⟨output, houtput, hexplained⟩
    · refine .inl ?_
      rw [hsame, hk]
      exact hrun₀
    · exact .inr ⟨output, houtput, hexplained.mono (hgrows.trans grows_enter)⟩

theorem InvoiceInv.updateOpenRun (h : InvoiceInv E P w) {f : InvoiceExtractionRun O → InvoiceExtractionRun O}
    {phase : InvoicePhase D O C} (hf : ∀ run, (f run).status ≠ .succeeded)
    (hphase : (w.updateOpenRun k f).PhaseOk E P phase) : InvoiceStep E P w ((w.updateOpenRun k f).enter i d phase) := by
  refine h.updateRun grows_updateOpenRun (fun _ run hstatus => .inl ?_) hphase
  split_ifs at hstatus ⊢ with hdone
  · rfl
  · exact absurd hstatus (hf run)

theorem grows_storeCall {f : String} {call : ModelCall C} (h : ∀ stored, w.calls f = some stored → stored.status ≠ .succeeded) :
    w.Grows (w.storeCall f call) := by
  refine ⟨fun _ h => h, fun f' hf' => ?_, fun _ _ hrun _ => hrun, fun f' stored hstored hstatus => ?_⟩
  · by_cases hf : f' = f
    · subst hf
      exact congrArg Option.isSome (Function.update_self f' _ w.calls)
    · exact (congrArg Option.isSome (Function.update_of_ne hf _ w.calls)).trans hf'
  · have hf : f' ≠ f := by
      rintro rfl
      exact h stored hstored hstatus
    exact (Function.update_of_ne hf _ _).trans hstored

theorem grows_finishCall {f : String} {call : ModelCall C} : w.Grows (w.finishCall f call) := by
  unfold InvoiceWorld.finishCall
  split
  · exact .refl w
  · split_ifs with hdone
    · exact .refl w
    · rename_i stored hstored
      refine grows_storeCall fun stored' hstored' => ?_
      rw [← Option.some.inj (hstored.symm.trans hstored')]
      exact hdone

theorem runs_finishCall {f : String} {call : ModelCall C} : (w.finishCall f call).runs = w.runs := by
  unfold InvoiceWorld.finishCall
  split
  · rfl
  · split_ifs
    · rfl
    · rfl

theorem deliveries_finishCall {f : String} {call : ModelCall C} : (w.finishCall f call).deliveries = w.deliveries := by
  unfold InvoiceWorld.finishCall
  split
  · rfl
  · split_ifs
    · rfl
    · rfl

theorem InvoiceInv.finishCall (h : InvoiceInv E P w) {f : String} {call : ModelCall C} {phase : InvoicePhase D O C}
    (hphase : (w.finishCall f call).PhaseOk E P phase) :
    InvoiceStep E P w ((w.finishCall f call).enter i d phase) := by
  have hgrows : w.Grows ((w.finishCall f call).enter i d phase) := grows_finishCall.trans grows_enter
  have hdeliveries : ((w.finishCall f call).enter i d phase).deliveries =
      w.deliveries.set i { d with phase := phase } :=
    congrArg (fun ds => ds.set i { d with phase := phase }) deliveries_finishCall
  refine h.step_of hdeliveries hgrows (fun run hrun _ => .inl ?_) (hphase.mono grows_enter)
  exact (congrFun runs_finishCall .hybrid).symm.trans hrun

theorem InvoiceInv.checkRun (h : InvoiceInv E P w) {working failed : InvoicePhase D O C}
    {served : InvoiceExtractionRun O → InvoicePhase D O C}
    (hworking : ∀ w' : InvoiceWorld D O C, w.Grows w' → (w'.runs k).isSome → w'.PhaseOk E P working)
    (hfailed : (w.runs k).isSome → w.PhaseOk E P failed)
    (hserved : ∀ run, w.runs k = some run → run.status = .succeeded → w.PhaseOk E P (served run)) :
    InvoiceStep E P w (w.checkRun i d k working failed served) := by
  unfold InvoiceWorld.checkRun
  cases hrun : w.runs k with
  | none =>
    have hgrows : w.Grows { w with runs := Function.update w.runs k (some (.created O)) } := by
      refine ⟨fun k' hk' => ?_, fun _ h => h, fun k' run hrun' _ => ?_, fun _ _ hcall _ => hcall⟩
      · by_cases hk : k' = k
        · subst hk
          rw [hrun] at hk'
          cases hk'
        · exact (congrArg Option.isSome (Function.update_of_ne hk _ w.runs)).trans hk'
      · have hk : k' ≠ k := by
          rintro rfl
          rw [hrun] at hrun'
          cases hrun'
        exact (Function.update_of_ne hk _ _).trans hrun'
    refine h.step_of rfl (hgrows.trans grows_enter) (fun run hrun' hstatus => .inl ?_) ?_
    · by_cases hk : InvoiceExtractor.hybrid = k
      · subst hk
        have hcreated : some (InvoiceExtractionRun.created O) = some run :=
          (Function.update_self InvoiceExtractor.hybrid _ w.runs).symm.trans hrun'
        rw [← Option.some.inj hcreated] at hstatus
        cases hstatus
      · exact (Function.update_of_ne hk _ _).symm.trans hrun'
    · refine (hworking _ hgrows ?_).mono grows_enter
      exact congrArg Option.isSome (Function.update_self k _ w.runs)
  | some run =>
    have hsome : (w.runs k).isSome := by rw [hrun]; rfl
    dsimp only
    split
    · rename_i hstatus
      exact h.enter (hserved run hrun hstatus)
    · exact h.enter (hworking w (.refl w) hsome)
    · exact h.enter (hfailed hsome)

/-- The output of the baseline run that has succeeded is what the hybrid service goes on with. -/
theorem phaseOk_afterBaseline {run : InvoiceExtractionRun O} (hrun : w.runs .baseline = some run)
    (hstatus : run.status = .succeeded) : w.PhaseOk E P (d.afterBaseline run.outputJson) := by
  unfold InvoiceDelivery.afterBaseline
  split
  · trivial
  · exact fun baseline houtput => ⟨run, hrun, hstatus, houtput⟩

theorem step_refresh (h : InvoiceInv E P w) : InvoiceStep E P w (w.refresh i d) := by
  unfold InvoiceWorld.refresh
  split
  · exact h.enter trivial
  · rename_i run hrun
    refine h.enter ?_
    split_ifs with hstatus
    · exact phaseOk_afterBaseline hrun hstatus
    · show (w.runs .baseline).isSome
      rw [hrun]
      rfl

theorem step_complete (h : InvoiceInv E P w) {text : Except ExtractionError D} (hrow : (w.runs .baseline).isSome)
    (hC : (text.bind E.extract).isOk = true → w.Open .baseline) : InvoiceStep E P w (w.complete E i d text) := by
  have hextracts : ∀ t output, text.bind (fun t => (E.extract t).map fun output => (t, output)) = .ok (t, output) →
      (text.bind E.extract).isOk = true := by
    intro t output hok
    cases text with
    | error e => cases hok
    | ok t' =>
      change (E.extract t').map (fun output => (t', output)) = .ok (t, output) at hok
      change (E.extract t').isOk = true
      cases hx : E.extract t' with
      | error e =>
        rw [hx] at hok
        cases hok
      | ok output' => rfl
  unfold InvoiceWorld.complete
  split
  · rename_i t output hok
    refine h.updateRun (grows_of_open (hC (hextracts t output hok))) (fun hk => by cases hk) ?_
    obtain ⟨run, hrun⟩ := Option.isSome_iff_exists.1 hrow
    refine ⟨.succeed output (E.usedOcr t), ?_, rfl⟩
    rw [runs_updateRun_self, hrun]
    rfl
  · exact h.updateOpenRun (fun _ hstatus => by cases hstatus) trivial

theorem step_require (h : InvoiceInv E P w) (hrun : ∃ run, w.runs .baseline = some run ∧ run.status = .succeeded) :
    InvoiceStep E P w (w.require i d) := by
  obtain ⟨run, hrun, hstatus⟩ := hrun
  unfold InvoiceWorld.require
  rw [hrun]
  exact h.enter (phaseOk_afterBaseline hrun hstatus)

theorem step_openRun (h : InvoiceInv E P w) {output : Option O}
    (hbaseline : ∀ baseline, output = some baseline → w.Baseline baseline) :
    InvoiceStep E P w (w.openRun i d output) := by
  cases output with
  | none => exact h.enter trivial
  | some baseline =>
    have hok := hbaseline baseline rfl
    exact h.checkRun (fun _ hgrows _ => hok.mono hgrows) (fun _ => hok) fun _ _ _ => trivial

theorem step_read (h : InvoiceInv E P w) {baseline : O} {text : Except ExtractionError D} (hbaseline : w.Baseline baseline)
    (hC : text.isOk = false → w.Open .hybrid) (hP : ∀ t, text = .ok t → P t) :
    InvoiceStep E P w (w.read i d baseline text) := by
  cases text with
  | error e => exact h.updateRun (grows_of_open (hC rfl)) (fun _ run hstatus => by cases hstatus) trivial
  | ok t => exact h.enter ⟨hbaseline, hP t rfl⟩

theorem step_openCall (h : InvoiceInv E P w) {baseline : O} {text : D} (hbaseline : w.Baseline baseline) (hP : P text) :
    InvoiceStep E P w (w.openCall E i d baseline text) := by
  unfold InvoiceWorld.openCall
  cases hcall : w.calls (E.fingerprint baseline text) with
  | some call =>
    have hsome : (w.calls (E.fingerprint baseline text)).isSome := by rw [hcall]; rfl
    exact h.enter ⟨hbaseline, hP, hsome, fun _ => hcall⟩
  | none =>
    have hgrows : w.Grows (w.storeCall (E.fingerprint baseline text) ⟨.processing, none, none⟩) :=
      grows_storeCall fun stored hstored => by rw [hcall] at hstored; cases hstored
    refine h.step_of rfl (hgrows.trans grows_enter) (fun _ hrun _ => .inl hrun) ?_
    refine ⟨hbaseline.mono (hgrows.trans grows_enter), hP, ?_, fun hstatus => by cases hstatus⟩
    exact congrArg Option.isSome (Function.update_self (E.fingerprint baseline text) _ w.calls)

theorem calls_finishCall {f : String} {call : ModelCall C} (hrow : (w.calls f).isSome)
    (hopen : ∀ stored ∈ w.calls f, stored.status ≠ .succeeded) : (w.finishCall f call).calls f = some call := by
  obtain ⟨stored, hstored⟩ := Option.isSome_iff_exists.1 hrow
  unfold InvoiceWorld.finishCall
  rw [hstored]
  dsimp only
  rw [if_neg (hopen stored hstored)]
  exact Function.update_self f _ w.calls

theorem step_answer (h : InvoiceInv E P w) {baseline : O} {text : D} {call : ModelCall C} {response : Except String C}
    (hok : w.PhaseOk E P (.calling baseline text call))
    (hC : response.isOk = true → E.asks baseline text call = true →
      ∀ stored ∈ w.calls (E.fingerprint baseline text), stored.status ≠ .succeeded) :
    InvoiceStep E P w (w.answer E i d baseline text call response) := by
  obtain ⟨hbaseline, hP, hrow, hreplayed⟩ := hok
  unfold InvoiceWorld.answer
  dsimp only
  split_ifs with hasks hroute
  · cases response with
    | ok candidate =>
      refine h.finishCall ⟨baseline, hbaseline.mono grows_finishCall, .inr ⟨text, candidate, hP, ?_, rfl⟩⟩
      exact ⟨_, calls_finishCall hrow (hC rfl hasks), rfl, rfl⟩
    | error code => exact h.finishCall ⟨baseline, hbaseline.mono grows_finishCall, .inl rfl⟩
  · exact h.finishCall ⟨baseline, hbaseline.mono grows_finishCall, .inl rfl⟩
  · split
    · rename_i candidate hcandidate
      unfold ModelCall.replayed at hcandidate
      split_ifs at hcandidate with hstatus
      exact h.enter ⟨baseline, hbaseline, .inr ⟨text, candidate, hP, ⟨call, hreplayed hstatus, hstatus, hcandidate⟩, rfl⟩⟩
    · exact h.enter ⟨baseline, hbaseline, .inl rfl⟩

/-- The text a delivery of the hybrid service reads. -/
def InvoiceAct.text : InvoiceAct D C → Option D
  | .read _ (.ok text) => some text
  | _ => none

theorem InvoiceInv.step (h : InvoiceInv E P w) {a : InvoiceAct D C} (hC : E.FirstWrite w a) (hP : ∀ t ∈ a.text, P t)
    (hn : w.next E a = some w') : InvoiceStep E P w w' := by
  cases a with
  | deliver service =>
    obtain rfl := Option.some.inj hn
    have hgrows : w.Grows { w with deliveries := w.deliveries ++ [⟨service, .begun⟩] } :=
      ⟨fun _ h => h, fun _ h => h, fun _ _ h _ => h, fun _ _ h _ => h⟩
    refine ⟨⟨fun run hrun hstatus => ?_, fun d hd => ?_⟩, hgrows⟩
    · obtain ⟨output, houtput, hexplained⟩ := h.hybrid run hrun hstatus
      exact ⟨output, houtput, hexplained.mono hgrows⟩
    · rcases List.mem_append.1 hd with hold | hnew
      · exact (h.phases d hold).mono hgrows
      · rw [List.mem_singleton.1 hnew]
        trivial
  | lose i =>
    obtain ⟨d, hd, hn⟩ := Option.bind_eq_some_iff.1 hn
    exact Option.some.inj hn ▸ h.enter trivial
  | check i =>
    obtain ⟨d, hd, hn⟩ := Option.bind_eq_some_iff.1 hn
    split at hn
    · refine Option.some.inj hn ▸ h.checkRun (fun _ _ hsome => hsome) (fun hsome => hsome) fun run hrun hstatus => ?_
      exact phaseOk_afterBaseline hrun hstatus
    · cases hn
  | markProcessing i =>
    obtain ⟨d, hd, hn⟩ := Option.bind_eq_some_iff.1 hn
    have hok := h.phases d (List.mem_of_getElem? hd)
    split at hn
    · rename_i hphase
      rw [hphase] at hok
      refine Option.some.inj hn ▸ h.updateOpenRun (fun _ hstatus => by cases hstatus) ?_
      exact grows_updateOpenRun.rows .baseline hok
    · cases hn
  | refresh i =>
    obtain ⟨d, hd, hn⟩ := Option.bind_eq_some_iff.1 hn
    split at hn
    · exact Option.some.inj hn ▸ step_refresh h
    · cases hn
  | complete i text =>
    obtain ⟨d, hd, hn⟩ := Option.bind_eq_some_iff.1 hn
    have hok := h.phases d (List.mem_of_getElem? hd)
    split at hn
    · rename_i hphase
      rw [hphase] at hok
      exact Option.some.inj hn ▸ step_complete h hok hC
    · cases hn
  | require i =>
    obtain ⟨d, hd, hn⟩ := Option.bind_eq_some_iff.1 hn
    have hok := h.phases d (List.mem_of_getElem? hd)
    split at hn
    · rename_i hphase
      rw [hphase] at hok
      exact Option.some.inj hn ▸ step_require h hok
    · cases hn
  | openRun i =>
    obtain ⟨d, hd, hn⟩ := Option.bind_eq_some_iff.1 hn
    have hok := h.phases d (List.mem_of_getElem? hd)
    split at hn
    · rename_i output hphase
      rw [hphase] at hok
      exact Option.some.inj hn ▸ step_openRun h hok
    · cases hn
  | reopenRun i =>
    obtain ⟨d, hd, hn⟩ := Option.bind_eq_some_iff.1 hn
    have hok := h.phases d (List.mem_of_getElem? hd)
    split at hn
    · rename_i baseline hphase
      rw [hphase] at hok
      refine Option.some.inj hn ▸ h.updateOpenRun (fun _ hstatus => by cases hstatus) ?_
      exact InvoiceWorld.Baseline.mono hok grows_updateOpenRun
    · cases hn
  | read i text =>
    obtain ⟨d, hd, hn⟩ := Option.bind_eq_some_iff.1 hn
    have hok := h.phases d (List.mem_of_getElem? hd)
    split at hn
    · rename_i baseline hphase
      rw [hphase] at hok
      exact Option.some.inj hn ▸ step_read h hok hC fun t ht => hP t (by rw [ht]; rfl)
    · cases hn
  | openCall i =>
    obtain ⟨d, hd, hn⟩ := Option.bind_eq_some_iff.1 hn
    have hok := h.phases d (List.mem_of_getElem? hd)
    split at hn
    · rename_i baseline text hphase
      rw [hphase] at hok
      exact Option.some.inj hn ▸ step_openCall h hok.1 hok.2
    · cases hn
  | answer i response =>
    obtain ⟨d, hd, hn⟩ := Option.bind_eq_some_iff.1 hn
    have hok := h.phases d (List.mem_of_getElem? hd)
    split at hn
    · rename_i baseline text call hphase
      rw [hphase] at hok
      refine Option.some.inj hn ▸ step_answer h hok fun hresponse hasks => hC hresponse _ ?_
      simp [InvoiceWorld.asked, hd, hphase, hasks]
    · cases hn
  | write i =>
    obtain ⟨d, hd, hn⟩ := Option.bind_eq_some_iff.1 hn
    have hok := h.phases d (List.mem_of_getElem? hd)
    split at hn
    · rename_i output usedOcr hphase
      rw [hphase] at hok
      exact Option.some.inj hn ▸ h.updateRun (grows_of_open hC) (fun _ _ _ => .inr ⟨output, rfl, hok⟩) trivial
    · cases hn

theorem invoiceInv_initial : InvoiceInv E P (.initial D O C) where
  hybrid _ hrun := by cases hrun
  phases _ hd := by cases hd

end

/-- Over every interleaving of deliveries to the two services in which a success, or a failure of the hybrid run, is
only written to a run that has not succeeded yet, and the model only answers deliveries whose call has not succeeded
yet: a run that has succeeded is kept as it is; and the output of a hybrid run that has succeeded is the output of
the baseline run, or its fusion with the candidate of a call that has succeeded, for a text that was read. -/
theorem hybrid_output_explained {D O C : Type} (E : InvoiceEnv D O C) {acts acts' : List (InvoiceAct D C)}
    {w w' : InvoiceWorld D O C}
    (h : Steps (restrict E.FirstWrite (InvoiceWorld.next E)) (.initial D O C) acts w)
    (hlater : Steps (restrict E.FirstWrite (InvoiceWorld.next E)) w acts' w') :
    (∀ k run, w.runs k = some run → run.status = .succeeded → w'.runs k = some run) ∧
      ∀ run, w'.runs .hybrid = some run → run.status = .succeeded → ∃ output, run.outputJson = some output ∧
        w'.Explained E (fun text => ∃ a ∈ acts ++ acts', a.text = some text) output := by
  let P : D → Prop := fun text => ∃ a ∈ acts ++ acts', a.text = some text
  have hstep : ∀ s a t, (∀ text ∈ a.text, P text) → InvoiceInv E P s →
      restrict E.FirstWrite (InvoiceWorld.next E) s a = some t → InvoiceStep E P s t := by
    intro s a t ha hs hn
    obtain ⟨hC, hn⟩ := restrict_eq_some.1 hn
    exact hs.step hC ha hn
  have hinv : InvoiceInv E P w :=
    h.invariant_of_forall (fun s a t ha hs hn => (hstep s a t ha hs hn).inv)
      (fun a ha text htext => ⟨a, List.mem_append_left _ ha, htext⟩) invoiceInv_initial
  have hboth : InvoiceStep E P w w' :=
    hlater.invariant_of_forall (I := InvoiceStep E P w)
      (fun s a t ha hs hn => ⟨(hstep s a t ha hs.inv hn).inv, hs.grows.trans (hstep s a t ha hs.inv hn).grows⟩)
      (fun a ha text htext => ⟨a, List.mem_append_right _ ha, htext⟩) ⟨hinv, .refl w⟩
  exact ⟨hboth.grows.runs, hboth.inv.hybrid⟩

/-- Documents and invoices are texts; the model is always asked, and its answer is the invoice. -/
def textEnv : InvoiceEnv String String String where
  extract text := if text = "" then .error .unreadableDocument else .ok text
  usedOcr _ := false
  route _ _ := ["NO_LINE_ITEMS"]
  fingerprint baseline _ := baseline
  fuse _ candidate _ := candidate

/-- Delivery `i` goes through the hybrid service up to the answer of the model; the baseline run is there. -/
def askActs (i : ℕ) : List (InvoiceAct String String) :=
  [.check i, .openRun i, .read i (.ok "Invoice 7"), .openCall i]

/-- Delivery `0` of two extracts the invoice. -/
def firstActs : List (InvoiceAct String String) :=
  [.deliver .hybrid, .deliver .hybrid, .check 0, .complete 0 (.ok "Invoice 7"), .require 0, .openRun 0,
    .read 0 (.ok "Invoice 7"), .openCall 0]

/-- The message is delivered again after the first delivery has been lost: the answer that is stored is used. -/
theorem hybrid_output_explained_replayed :
    ∃ w w', Steps (restrict textEnv.FirstWrite (InvoiceWorld.next textEnv)) (.initial _ _ _)
        (firstActs ++ [.answer 0 (.ok "Invoice 7, one line"), .lose 0]) w ∧
      Steps (restrict textEnv.FirstWrite (InvoiceWorld.next textEnv)) w
        (askActs 1 ++ [.answer 1 (.ok "Invoice 7, two lines"), .write 1]) w' ∧
      (w'.runs .hybrid).map (fun run => (run.status, run.outputJson)) = some (.succeeded, some "Invoice 7, one line") ∧
      ∀ k run, w.runs k = some run → run.status = .succeeded → w'.runs k = some run := by
  have hexec : (exec (restrict textEnv.FirstWrite (InvoiceWorld.next textEnv)) (.initial _ _ _)
      (firstActs ++ [.answer 0 (.ok "Invoice 7, one line"), .lose 0])).any (fun w =>
        (exec (restrict textEnv.FirstWrite (InvoiceWorld.next textEnv)) w
          (askActs 1 ++ [.answer 1 (.ok "Invoice 7, two lines"), .write 1])).any fun w' =>
            (w'.runs .hybrid).map (fun run => (run.status, run.outputJson)) =
              some (.succeeded, some "Invoice 7, one line")) = true := by
    decide +kernel
  obtain ⟨w, hw, hexec⟩ := (Option.any_eq_true _ _).1 hexec
  obtain ⟨w', hw', houtput⟩ := (Option.any_eq_true _ _).1 hexec
  exact ⟨w, w', .of_exec hw, .of_exec hw', of_decide_eq_true houtput,
    (hybrid_output_explained textEnv (.of_exec hw) (.of_exec hw')).1⟩

/-- Both deliveries have asked the model, and get different answers; the first one writes the run. -/
def twoAnswersActs : List (InvoiceAct String String) :=
  firstActs ++ askActs 1 ++
    [.answer 0 (.ok "Invoice 7, one line"), .answer 1 (.ok "Invoice 7, two lines"), .write 0]

/-- The output of the hybrid run that has succeeded is written over, and is not the fusion with the stored candidate. -/
theorem hybrid_output_overwritten :
    ∃ w w', Steps (InvoiceWorld.next textEnv) (.initial _ _ _) twoAnswersActs w ∧
      Steps (InvoiceWorld.next textEnv) w [.write 1] w' ∧
      (w.runs .hybrid).map (fun run => (run.status, run.outputJson)) = some (.succeeded, some "Invoice 7, one line") ∧
      (w'.runs .hybrid).map (fun run => (run.status, run.outputJson)) = some (.succeeded, some "Invoice 7, two lines") ∧
      (w'.runs .baseline).map (·.outputJson) = some (some "Invoice 7") ∧
      (w'.calls "Invoice 7").map (fun call => (call.status, call.candidateJson)) =
        some (.succeeded, some "Invoice 7, one line") ∧
      textEnv.fuse "Invoice 7" "Invoice 7, one line" "Invoice 7" = "Invoice 7, one line" := by
  have hexec : (exec (InvoiceWorld.next textEnv) (.initial _ _ _) twoAnswersActs).any (fun w =>
      (w.runs .hybrid).map (fun run => (run.status, run.outputJson)) = some (.succeeded, some "Invoice 7, one line") ∧
        (exec (InvoiceWorld.next textEnv) w [.write 1]).any fun w' =>
          (w'.runs .hybrid).map (fun run => (run.status, run.outputJson)) =
            some (.succeeded, some "Invoice 7, two lines") ∧
          (w'.runs .baseline).map (·.outputJson) = some (some "Invoice 7") ∧
          (w'.calls "Invoice 7").map (fun call => (call.status, call.candidateJson)) =
            some (.succeeded, some "Invoice 7, one line")) = true := by
    decide +kernel
  obtain ⟨w, hw, hexec⟩ := (Option.any_eq_true _ _).1 hexec
  obtain ⟨hbefore, hexec⟩ := of_decide_eq_true hexec
  obtain ⟨w', hw', hafter⟩ := (Option.any_eq_true _ _).1 hexec
  obtain ⟨hhybrid, hbaseline, hcall⟩ := of_decide_eq_true hafter
  exact ⟨w, w', .of_exec hw, .of_exec hw', hbefore, hhybrid, hbaseline, hcall, rfl⟩

end InvoiceOps
