import InvoiceOps.Extraction.Hybrid

/-! One call of `HybridExtractionService.process` (`extraction/hybrid/service.py`), with the errors of the renderer and
of the provider. They are raised at different points of one guarded block, and the handler reads `provider_started`,
which is bound between two of these points: an error of the provider's construction is raised before it. -/

namespace InvoiceOps

open StateMachine

inductive VisionError
  | provider (code : String)
  | rendering (code : String)
deriving DecidableEq, Repr

def VisionError.code : VisionError → String
  | .provider code => code
  | .rendering code => code

/-- What the renderer, the factory of the provider and the provider do in one call; errors by their codes. -/
structure VisionSession (C : Type) where
  render : Except String Unit
  providerFactory : Except String Unit
  extract : Except String C

/-- An error that has left the block, and whether `provider_started` was bound by then. -/
structure Raised where
  error : VisionError
  providerStarted : Bool
deriving DecidableEq, Repr

/-- The block up to the answer of the provider. -/
def VisionSession.ask {C : Type} (v : VisionSession C) : Except Raised C :=
  match v.render with
  | .error code => .error ⟨.rendering code, false⟩
  | .ok () =>
    match v.providerFactory with
    | .error code => .error ⟨.provider code, false⟩
    | .ok () =>
      match v.extract with
      | .error code => .error ⟨.provider code, true⟩
      | .ok candidate => .ok candidate

/-- The provider cannot be constructed, and its construction is tried. -/
def VisionSession.ConstructionFails {C : Type} (v : VisionSession C) : Prop :=
  v.render = .ok () ∧ ∃ code, v.providerFactory = .error code

inductive ProcessError
  | extraction (e : ExtractionError)
  /-- The baseline run has no output to validate. -/
  | validation
  | unboundLocal (name : String)
  | runDisappeared
deriving DecidableEq, Repr

/-- What a call leaves: the rows, the run it returns or the error it raises, and whether it entered the block. -/
structure Processed (D O C : Type) where
  world : InvoiceWorld D O C
  result : Except ProcessError (InvoiceExtractionRun O)
  asked : Bool

section

variable {D O C : Type} (E : InvoiceEnv D O C) (w : InvoiceWorld D O C)

/-- `_get_or_create_run` with `_mark_processing`; a run that has succeeded is returned before it is marked. -/
def InvoiceWorld.openedRun (k : InvoiceExtractor) (mark : InvoiceExtractionRun O → InvoiceExtractionRun O) :
    InvoiceWorld D O C × InvoiceExtractionRun O :=
  match w.runs k with
  | none => ({ w with runs := Function.update w.runs k (some (.created O)) }, .created O)
  | some run =>
    match run.status with
    | .failed => (w.updateOpenRun k mark, mark run)
    | .processing | .succeeded => (w, run)

/-- `_require_run`. -/
def InvoiceWorld.requireRun (k : InvoiceExtractor) : Except ProcessError (InvoiceExtractionRun O) :=
  match w.runs k with
  | none => .error .runDisappeared
  | some run => .ok run

/-- `ExtractionService.process`. -/
def InvoiceWorld.processBaseline (text : Except ExtractionError D) :
    InvoiceWorld D O C × Except ProcessError (InvoiceExtractionRun O) :=
  let opened := w.openedRun .baseline fun _ => .created O
  if opened.2.status = .succeeded then (opened.1, .ok opened.2)
  else
    match text.bind fun t => (E.extract t).map fun output => (t, output) with
    | .error e => (opened.1.updateOpenRun .baseline fun _ => .fail e, .error (.extraction e))
    | .ok (t, output) =>
      let done := opened.1.updateRun .baseline fun _ => .succeed output (E.usedOcr t)
      (done, done.requireRun .baseline)

/-- The row of the run is written, and read again. -/
def InvoiceWorld.persist (output : O) (usedOcr asked : Bool) : Processed D O C :=
  let done := w.updateRun .hybrid fun _ => .succeed output usedOcr
  ⟨done, done.requireRun .hybrid, asked⟩

/-- `_get_or_create_call`. -/
def InvoiceWorld.openedCall (fingerprint : String) : InvoiceWorld D O C × ModelCall C :=
  match w.calls fingerprint with
  | some call => (w, call)
  | none => (w.storeCall fingerprint ⟨.processing, none, none⟩, ⟨.processing, none, none⟩)

/-- The handler: the time since `provider_started` is measured for an error of the provider. -/
def InvoiceWorld.handle (baseline : O) (text : D) (raised : Raised) : Processed D O C :=
  match raised.error, raised.providerStarted with
  | .provider _, false => ⟨w, .error (.unboundLocal "provider_started"), true⟩
  | error, _ =>
    (w.finishCall (E.fingerprint baseline text) ⟨.failed, none, some error.code⟩).persist baseline (E.usedOcr text) true

def InvoiceWorld.callModel (baseline : O) (text : D) (vision : VisionSession C) : Processed D O C :=
  let fingerprint := E.fingerprint baseline text
  let usedOcr := E.usedOcr text
  let opened := w.openedCall fingerprint
  if E.route baseline text = [] then
    (opened.1.finishCall fingerprint ⟨.skipped, none, none⟩).persist baseline usedOcr false
  else
    match opened.2.replayed with
    | some candidate => opened.1.persist (E.fuse baseline candidate text) usedOcr false
    | none =>
      if opened.2.status = .failed then opened.1.persist baseline usedOcr false
      else
        match vision.ask with
        | .ok candidate =>
          (opened.1.finishCall fingerprint ⟨.succeeded, some candidate, none⟩).persist
            (E.fuse baseline candidate text) usedOcr true
        | .error raised => opened.1.handle E baseline text raised

/-- `HybridExtractionService.process`; the document is read once by each of the two services. -/
def InvoiceWorld.process (baselineText text : Except ExtractionError D) (vision : VisionSession C) :
    Processed D O C :=
  let first := w.processBaseline E baselineText
  match first.2 with
  | .error e => ⟨first.1, .error e, false⟩
  | .ok run =>
    match run.outputJson with
    | none => ⟨first.1, .error .validation, false⟩
    | some baseline =>
      let opened := first.1.openedRun .hybrid (·.reopen)
      if opened.2.status = .succeeded then ⟨opened.1, .ok opened.2, false⟩
      else
        match text with
        | .error e => ⟨opened.1.updateRun .hybrid (·.failHybrid e), .error (.extraction e), false⟩
        | .ok t => opened.1.callModel E baseline t vision

/-- The call has returned the hybrid run, which has succeeded with the baseline invoice; the call of the model is
failed with the code; and a further call returns the run, asks no provider and leaves the rows alone. -/
structure Processed.Completes (p : Processed D O C) (text : Except ExtractionError D) (code : String) : Prop where
  completed : ∃ baselineRun run baseline t, p.world.runs .baseline = some baselineRun ∧
    baselineRun.status = .succeeded ∧ baselineRun.outputJson = some baseline ∧ text = .ok t ∧
    p.result = .ok run ∧ p.world.runs .hybrid = some run ∧ run.status = .succeeded ∧ run.outputJson = some baseline ∧
    p.world.calls (E.fingerprint baseline t) = some ⟨.failed, none, some code⟩
  repeated : ∀ baselineText text' vision, (p.world.process E baselineText text' vision).result = p.result ∧
    (p.world.process E baselineText text' vision).asked = false ∧
    (p.world.process E baselineText text' vision).world = p.world

end

section

variable {D O C : Type} {E : InvoiceEnv D O C} {w w' : InvoiceWorld D O C} {i : ℕ} {d : InvoiceDelivery D O C}

/-- A call that has succeeded has a candidate. -/
def InvoiceWorld.CandidatesStored (w : InvoiceWorld D O C) : Prop :=
  ∀ f call, w.calls f = some call → call.status = .succeeded → call.candidateJson.isSome

theorem InvoiceWorld.CandidatesStored.of_calls (h : w.CandidatesStored) (hcalls : w'.calls = w.calls) :
    w'.CandidatesStored := by
  intro f call hcall
  exact h f call (hcalls ▸ hcall)

theorem InvoiceWorld.CandidatesStored.storeCall (h : w.CandidatesStored) {f : String} {call : ModelCall C}
    (hnew : call.status = .succeeded → call.candidateJson.isSome) : (w.storeCall f call).CandidatesStored := by
  intro f' call' hcall'
  by_cases hf : f' = f
  · subst hf
    have hsame : some call = some call' := (Function.update_self f' _ w.calls).symm.trans hcall'
    rw [← Option.some.inj hsame]
    exact hnew
  · exact h f' call' ((Function.update_of_ne hf _ w.calls).symm.trans hcall')

theorem InvoiceWorld.CandidatesStored.finishCall (h : w.CandidatesStored) {f : String} {call : ModelCall C}
    (hnew : call.status = .succeeded → call.candidateJson.isSome) : (w.finishCall f call).CandidatesStored := by
  unfold InvoiceWorld.finishCall
  split
  · exact h
  · split_ifs
    · exact h
    · exact h.storeCall hnew

theorem calls_checkRun {k : InvoiceExtractor} {working failed : InvoicePhase D O C}
    {served : InvoiceExtractionRun O → InvoicePhase D O C} :
    (w.checkRun i d k working failed served).calls = w.calls := by
  unfold InvoiceWorld.checkRun
  split
  · rfl
  · split <;> rfl

theorem calls_openRun {output : Option O} : (w.openRun i d output).calls = w.calls := by
  unfold InvoiceWorld.openRun
  split
  · rfl
  · exact calls_checkRun

theorem calls_refresh : (w.refresh i d).calls = w.calls := by
  unfold InvoiceWorld.refresh
  split <;> rfl

theorem calls_complete {text : Except ExtractionError D} : (w.complete E i d text).calls = w.calls := by
  unfold InvoiceWorld.complete
  split <;> rfl

theorem calls_require : (w.require i d).calls = w.calls := by
  unfold InvoiceWorld.require
  split <;> rfl

theorem calls_read {baseline : O} {text : Except ExtractionError D} : (w.read i d baseline text).calls = w.calls := by
  unfold InvoiceWorld.read
  split <;> rfl

theorem candidatesStored_openCall (h : w.CandidatesStored) {baseline : O} {text : D} :
    (w.openCall E i d baseline text).CandidatesStored := by
  unfold InvoiceWorld.openCall
  split
  · exact h.of_calls rfl
  · exact (h.storeCall fun hstatus => by cases hstatus).of_calls rfl

theorem candidatesStored_answer (h : w.CandidatesStored) {baseline : O} {text : D} {call : ModelCall C}
    {response : Except String C} : (w.answer E i d baseline text call response).CandidatesStored := by
  unfold InvoiceWorld.answer
  dsimp only
  split_ifs
  · cases response with
    | ok candidate => exact (h.finishCall fun _ => rfl).of_calls rfl
    | error code => exact (h.finishCall fun hstatus => by cases hstatus).of_calls rfl
  · exact (h.finishCall fun hstatus => by cases hstatus).of_calls rfl
  · split
    · exact h.of_calls rfl
    · exact h.of_calls rfl

theorem InvoiceWorld.CandidatesStored.step (h : w.CandidatesStored) {a : InvoiceAct D C} (hn : w.next E a = some w') :
    w'.CandidatesStored := by
  cases a with
  | deliver service =>
    obtain rfl := Option.some.inj hn
    exact h.of_calls rfl
  | openCall i =>
    obtain ⟨d, -, hn⟩ := Option.bind_eq_some_iff.1 hn
    split at hn
    · obtain rfl := Option.some.inj hn
      exact candidatesStored_openCall h
    · cases hn
  | answer i response =>
    obtain ⟨d, -, hn⟩ := Option.bind_eq_some_iff.1 hn
    split at hn
    · obtain rfl := Option.some.inj hn
      exact candidatesStored_answer h
    · cases hn
  | check i =>
    obtain ⟨d, -, hn⟩ := Option.bind_eq_some_iff.1 hn
    split at hn
    · obtain rfl := Option.some.inj hn
      exact h.of_calls calls_checkRun
    · cases hn
  | markProcessing i =>
    obtain ⟨d, -, hn⟩ := Option.bind_eq_some_iff.1 hn
    split at hn
    · obtain rfl := Option.some.inj hn
      exact h.of_calls rfl
    · cases hn
  | refresh i =>
    obtain ⟨d, -, hn⟩ := Option.bind_eq_some_iff.1 hn
    split at hn
    · obtain rfl := Option.some.inj hn
      exact h.of_calls calls_refresh
    · cases hn
  | complete i text =>
    obtain ⟨d, -, hn⟩ := Option.bind_eq_some_iff.1 hn
    split at hn
    · obtain rfl := Option.some.inj hn
      exact h.of_calls calls_complete
    · cases hn
  | require i =>
    obtain ⟨d, -, hn⟩ := Option.bind_eq_some_iff.1 hn
    split at hn
    · obtain rfl := Option.some.inj hn
      exact h.of_calls calls_require
    · cases hn
  | openRun i =>
    obtain ⟨d, -, hn⟩ := Option.bind_eq_some_iff.1 hn
    split at hn
    · obtain rfl := Option.some.inj hn
      exact h.of_calls calls_openRun
    · cases hn
  | reopenRun i =>
    obtain ⟨d, -, hn⟩ := Option.bind_eq_some_iff.1 hn
    split at hn
    · obtain rfl := Option.some.inj hn
      exact h.of_calls rfl
    · cases hn
  | read i text =>
    obtain ⟨d, -, hn⟩ := Option.bind_eq_some_iff.1 hn
    split at hn
    · obtain rfl := Option.some.inj hn
      exact h.of_calls calls_read
    · cases hn
  | write i =>
    obtain ⟨d, -, hn⟩ := Option.bind_eq_some_iff.1 hn
    split at hn
    · obtain rfl := Option.some.inj hn
      exact h.of_calls rfl
    · cases hn
  | lose i =>
    obtain ⟨d, -, hn⟩ := Option.bind_eq_some_iff.1 hn
    obtain rfl := Option.some.inj hn
    exact h.of_calls rfl

theorem candidatesStored_of_steps {acts : List (InvoiceAct D C)}
    (h : Steps (InvoiceWorld.next E) (.initial D O C) acts w) : w.CandidatesStored :=
  h.invariant (fun _ _ _ hs hn => hs.step hn) fun _ _ hcall => by cases hcall

end

section

variable {D O C : Type} {E : InvoiceEnv D O C} {w : InvoiceWorld D O C}

theorem runs_updateRun_of_ne {k k' : InvoiceExtractor} {f : InvoiceExtractionRun O → InvoiceExtractionRun O}
    (hk : k' ≠ k) : (w.updateRun k f).runs k' = w.runs k' := Function.update_of_ne hk _ w.runs

/-- The run is there afterwards as it was returned, the other run and the calls are as before. -/
theorem openedRun_spec (w : InvoiceWorld D O C) (k : InvoiceExtractor)
    (mark : InvoiceExtractionRun O → InvoiceExtractionRun O) :
    (w.openedRun k mark).1.runs k = some (w.openedRun k mark).2 ∧
      (∀ k', k' ≠ k → (w.openedRun k mark).1.runs k' = w.runs k') ∧ (w.openedRun k mark).1.calls = w.calls := by
  unfold InvoiceWorld.openedRun
  cases hrun : w.runs k with
  | none =>
    exact ⟨Function.update_self k _ w.runs, fun k' hk => Function.update_of_ne hk _ w.runs, rfl⟩
  | some run =>
    cases hstatus : run.status with
    | failed =>
      have hopen : ¬ run.status = .succeeded := by simp [hstatus]
      simp only [hstatus]
      refine ⟨?_, fun k' hk => runs_updateRun_of_ne hk, rfl⟩
      rw [InvoiceWorld.updateOpenRun, runs_updateRun_self, hrun, Option.map_some, if_neg hopen]
    | processing => simp only [hstatus, hrun, implies_true, and_self]
    | succeeded => simp only [hstatus, hrun, implies_true, and_self]

theorem openedRun_of_succeeded {k : InvoiceExtractor} {mark : InvoiceExtractionRun O → InvoiceExtractionRun O}
    {run : InvoiceExtractionRun O} (hrun : w.runs k = some run) (hstatus : run.status = .succeeded) :
    w.openedRun k mark = (w, run) := by
  simp only [InvoiceWorld.openedRun, hrun, hstatus]

theorem requireRun_eq_ok {k : InvoiceExtractor} {run : InvoiceExtractionRun O} :
    w.requireRun k = .ok run ↔ w.runs k = some run := by
  unfold InvoiceWorld.requireRun
  split
  · rename_i hrun
    simp [hrun]
  · rename_i run' hrun
    simp [hrun]

theorem processBaseline_ok {text : Except ExtractionError D} {run : InvoiceExtractionRun O}
    (h : (w.processBaseline E text).2 = .ok run) :
    (w.processBaseline E text).1.runs .baseline = some run ∧ run.status = .succeeded ∧
      (w.processBaseline E text).1.calls = w.calls := by
  obtain ⟨hrow, -, hcalls⟩ := openedRun_spec w .baseline fun _ => InvoiceExtractionRun.created O
  unfold InvoiceWorld.processBaseline at h ⊢
  dsimp only at h ⊢
  split_ifs at h ⊢ with hstatus
  · obtain rfl := Except.ok.inj h
    exact ⟨hrow, hstatus, hcalls⟩
  · split at h
    · cases h
    · rename_i t output htext
      have hdone := requireRun_eq_ok.1 h
      rw [runs_updateRun_self, hrow, Option.map_some] at hdone
      obtain rfl := Option.some.inj hdone
      refine ⟨?_, rfl, hcalls⟩
      rw [runs_updateRun_self, hrow, Option.map_some]

theorem persist_spec (hrow : (w.runs .hybrid).isSome) (output : O) (usedOcr asked : Bool) :
    (w.persist output usedOcr asked).result = .ok (.succeed output usedOcr) ∧
      (w.persist output usedOcr asked).world.runs .hybrid = some (.succeed output usedOcr) ∧
      (w.persist output usedOcr asked).world.runs .baseline = w.runs .baseline ∧
      (w.persist output usedOcr asked).world.calls = w.calls := by
  obtain ⟨run, hrun⟩ := Option.isSome_iff_exists.1 hrow
  have hwritten : (w.updateRun .hybrid fun _ => InvoiceExtractionRun.succeed output usedOcr).runs .hybrid =
      some (.succeed output usedOcr) := by
    rw [runs_updateRun_self, hrun, Option.map_some]
  exact ⟨requireRun_eq_ok.2 hwritten, hwritten, runs_updateRun_of_ne (by decide), rfl⟩

theorem openedCall_spec (w : InvoiceWorld D O C) (f : String) :
    (w.openedCall f).1.calls f = some (w.openedCall f).2 ∧ (w.openedCall f).1.runs = w.runs ∧
      ((w.openedCall f).2.status = .succeeded → w.calls f = some (w.openedCall f).2) := by
  unfold InvoiceWorld.openedCall
  cases hcall : w.calls f with
  | some call => exact ⟨hcall, rfl, fun _ => rfl⟩
  | none => exact ⟨Function.update_self f _ w.calls, rfl, fun hstatus => by cases hstatus⟩

/-- How a call gets to the guarded block. -/
structure ReachesBlock (E : InvoiceEnv D O C) (w : InvoiceWorld D O C) (baselineText text : Except ExtractionError D)
    (w' : InvoiceWorld D O C) (baseline : O) (t : D) : Prop where
  stored : ∃ run, w'.runs .baseline = some run ∧ run.status = .succeeded ∧ run.outputJson = some baseline
  hybrid : (w'.runs .hybrid).isSome
  read : text = .ok t
  row : (w'.calls (E.fingerprint baseline t)).isSome
  undecided : w.CandidatesStored → ∀ call ∈ w'.calls (E.fingerprint baseline t), call.status ≠ .succeeded
  process : ∀ vision raised, vision.ask = .error raised →
    w.process E baselineText text vision = w'.handle E baseline t raised

theorem reachesBlock_of_callModel {baseline : O} {t : D} {vision : VisionSession C}
    (h : (w.callModel E baseline t vision).asked = true) :
    let w' := (w.openedCall (E.fingerprint baseline t)).1
    (w.CandidatesStored → ∀ call ∈ w'.calls (E.fingerprint baseline t), call.status ≠ .succeeded) ∧
      ∀ (vision' : VisionSession C) raised, vision'.ask = .error raised →
        w.callModel E baseline t vision' = w'.handle E baseline t raised := by
  obtain ⟨hcall, -, hstored⟩ := openedCall_spec w (E.fingerprint baseline t)
  unfold InvoiceWorld.callModel at h
  dsimp only at h
  split at h
  · cases h
  · rename_i hroute
    split at h
    · cases h
    · rename_i hreplayed
      split at h
      · cases h
      · rename_i hfailed
        refine ⟨fun hcandidates call hmem hstatus => ?_, fun vision' raised hraised => ?_⟩
        · obtain rfl := Option.some.inj (hcall.symm.trans hmem)
          have hsome := hcandidates _ _ (hstored hstatus) hstatus
          rw [ModelCall.replayed, if_pos hstatus] at hreplayed
          rw [hreplayed] at hsome
          cases hsome
        · simp only [InvoiceWorld.callModel, if_neg hroute, hreplayed, if_neg hfailed, hraised]

theorem reachesBlock_of_asked {baselineText text : Except ExtractionError D} {vision : VisionSession C}
    (h : (w.process E baselineText text vision).asked = true) :
    ∃ w' baseline t, ReachesBlock E w baselineText text w' baseline t := by
  unfold InvoiceWorld.process at h
  dsimp only at h
  split at h
  · cases h
  · rename_i run hrun
    obtain ⟨hrow, hstatus, hcalls⟩ := processBaseline_ok hrun
    split at h
    · cases h
    · rename_i baseline houtput
      obtain ⟨hhybrid, hothers, hcalls'⟩ := openedRun_spec (w.processBaseline E baselineText).1 .hybrid (·.reopen)
      split at h
      · cases h
      · rename_i hdone
        split at h
        · cases h
        · rename_i t
          obtain ⟨hundecided, hhandle⟩ := reachesBlock_of_callModel h
          obtain ⟨hcall, hruns, -⟩ := openedCall_spec
            ((w.processBaseline E baselineText).1.openedRun .hybrid (·.reopen)).1 (E.fingerprint baseline t)
          refine ⟨(((w.processBaseline E baselineText).1.openedRun .hybrid (·.reopen)).1.openedCall
            (E.fingerprint baseline t)).1, baseline, t, ⟨run, ?_, hstatus, houtput⟩, ?_, rfl, ?_, fun hcandidates => ?_, ?_⟩
          · rw [hruns, hothers .baseline (by decide), hrow]
          · rw [hruns, hhybrid]
            rfl
          · rw [hcall]
            rfl
          · exact hundecided (hcandidates.of_calls (hcalls'.trans hcalls))
          · intro vision' raised hraised
            simp only [InvoiceWorld.process, hrun, houtput, if_neg hdone]
            exact hhandle vision' raised hraised

/-- A call after both runs have succeeded returns the hybrid run and does nothing else. -/
theorem process_of_succeeded {baselineRun run : InvoiceExtractionRun O} {baseline : O}
    {baselineText text : Except ExtractionError D} {vision : VisionSession C}
    (hbaseline : w.runs .baseline = some baselineRun) (hstatus : baselineRun.status = .succeeded)
    (houtput : baselineRun.outputJson = some baseline) (hrun : w.runs .hybrid = some run)
    (hdone : run.status = .succeeded) : w.process E baselineText text vision = ⟨w, .ok run, false⟩ := by
  simp only [InvoiceWorld.process, InvoiceWorld.processBaseline, openedRun_of_succeeded hbaseline hstatus, hstatus,
    if_true, houtput, openedRun_of_succeeded hrun hdone, hdone]

/-- The handler completes the call unless it finds `provider_started` unbound. -/
theorem completes_of_bound {baselineText text : Except ExtractionError D} {w' : InvoiceWorld D O C} {baseline : O} {t : D}
    {raised : Raised} (h : ReachesBlock E w baselineText text w' baseline t) (hcandidates : w.CandidatesStored)
    (hbound : ∀ code, raised ≠ ⟨.provider code, false⟩) :
    (w'.handle E baseline t raised).Completes E text raised.error.code := by
  have hhandle : w'.handle E baseline t raised = (w'.finishCall (E.fingerprint baseline t)
      ⟨.failed, none, some raised.error.code⟩).persist baseline (E.usedOcr t) true := by
    obtain ⟨error, started⟩ := raised
    cases error with
    | rendering code => rfl
    | provider code =>
      cases started with
      | false => exact absurd rfl (hbound code)
      | true => rfl
  obtain ⟨baselineRun, hbaseline, hstatus, houtput⟩ := h.stored
  have hcall : (w'.finishCall (E.fingerprint baseline t) ⟨.failed, none, some raised.error.code⟩).calls
      (E.fingerprint baseline t) = some ⟨.failed, none, some raised.error.code⟩ :=
    calls_finishCall h.row (h.undecided hcandidates)
  have hrow : ((w'.finishCall (E.fingerprint baseline t) ⟨.failed, none, some raised.error.code⟩).runs .hybrid).isSome := by
    rw [runs_finishCall]
    exact h.hybrid
  obtain ⟨hresult, hrun, hsame, hcalls⟩ := persist_spec hrow baseline (E.usedOcr t) true
  rw [runs_finishCall] at hsame
  rw [hhandle]
  refine ⟨⟨baselineRun, _, baseline, t, hsame.trans hbaseline, hstatus, houtput, h.read, hresult, hrun, rfl, rfl,
    (congrFun hcalls _).trans hcall⟩, fun baselineText' text' vision => ?_⟩
  rw [process_of_succeeded (hsame.trans hbaseline) hstatus houtput hrun rfl]
  exact ⟨hresult.symm, rfl, rfl⟩

theorem ask_unbound_iff {vision : VisionSession C} {raised : Raised} (h : vision.ask = .error raised) :
    (∃ code, raised = ⟨.provider code, false⟩) ↔ vision.ConstructionFails := by
  unfold VisionSession.ask at h
  unfold VisionSession.ConstructionFails
  cases hrender : vision.render with
  | error code =>
    simp only [hrender] at h
    obtain rfl := Except.error.inj h
    simp
  | ok u =>
    cases hfactory : vision.providerFactory with
    | error code =>
      simp only [hrender, hfactory] at h
      obtain rfl := Except.error.inj h
      simp
    | ok u =>
      cases hextract : vision.extract with
      | error code =>
        simp only [hrender, hfactory, hextract] at h
        obtain rfl := Except.error.inj h
        simp
      | ok candidate =>
        simp only [hrender, hfactory, hextract] at h
        cases h

end

/-- For every state of the rows that deliveries lead to, and every error of the renderer or of the provider that a call
runs into: the call completes with the baseline invoice, and further calls return its run, unless the provider cannot
be constructed. -/
theorem completes_iff_constructed {D O C : Type} (E : InvoiceEnv D O C) {acts : List (InvoiceAct D C)}
    {w : InvoiceWorld D O C} (hrun : Steps (InvoiceWorld.next E) (.initial D O C) acts w)
    {baselineText text : Except ExtractionError D} {vision : VisionSession C} {raised : Raised}
    (hasked : (w.process E baselineText text vision).asked = true) (hraised : vision.ask = .error raised) :
    (w.process E baselineText text vision).Completes E text raised.error.code ↔ ¬ vision.ConstructionFails := by
  obtain ⟨w', baseline, t, hreaches⟩ := reachesBlock_of_asked hasked
  rw [hreaches.process vision raised hraised, ← ask_unbound_iff hraised]
  constructor
  · rintro ⟨⟨_, _, _, _, -, -, -, -, hresult, -⟩, -⟩ ⟨code, rfl⟩
    cases hresult
  · intro hbound
    exact completes_of_bound hreaches (candidatesStored_of_steps hrun) fun code heq => hbound ⟨code, heq⟩

/-- The provider is constructed and refuses the request. -/
def refusingVision : VisionSession String := ⟨.ok (), .ok (), .error "provider_refusal"⟩

theorem completes_iff_constructed_refusal :
    ((InvoiceWorld.initial String String String).process textEnv (.ok "Invoice 7") (.ok "Invoice 7")
        refusingVision).asked = true ∧ ¬ refusingVision.ConstructionFails ∧
      ((InvoiceWorld.initial String String String).process textEnv (.ok "Invoice 7") (.ok "Invoice 7")
        refusingVision).Completes textEnv (.ok "Invoice 7") "provider_refusal" := by
  have hasked : ((InvoiceWorld.initial String String String).process textEnv (.ok "Invoice 7") (.ok "Invoice 7")
      refusingVision).asked = true := by decide +kernel
  have hconstructed : ¬ refusingVision.ConstructionFails := by
    rintro ⟨-, code, hcode⟩
    cases hcode
  have hraised : refusingVision.ask = .error ⟨.provider "provider_refusal", true⟩ := rfl
  exact ⟨hasked, hconstructed, (completes_iff_constructed textEnv .nil hasked hraised).2 hconstructed⟩

def unconstructedVision : VisionSession String := ⟨.ok (), .error "provider_failed", .ok "Invoice 7, one line"⟩

/-- The error of the construction becomes an error of the handler: the call raises it, and both the run and the call of
the model stay in processing, though the baseline has succeeded. -/
theorem construction_error_escapes :
    unconstructedVision.ask = .error ⟨.provider "provider_failed", false⟩ ∧
    ((InvoiceWorld.initial String String String).process textEnv (.ok "Invoice 7") (.ok "Invoice 7")
        unconstructedVision).asked = true ∧
      ((InvoiceWorld.initial String String String).process textEnv (.ok "Invoice 7") (.ok "Invoice 7")
        unconstructedVision).result = .error (.unboundLocal "provider_started") ∧
      ((InvoiceWorld.initial String String String).process textEnv (.ok "Invoice 7") (.ok "Invoice 7")
        unconstructedVision).world.runs .baseline = some (.succeed "Invoice 7" false) ∧
      ((InvoiceWorld.initial String String String).process textEnv (.ok "Invoice 7") (.ok "Invoice 7")
        unconstructedVision).world.runs .hybrid = some (.created String) ∧
      ((InvoiceWorld.initial String String String).process textEnv (.ok "Invoice 7") (.ok "Invoice 7")
        unconstructedVision).world.calls "Invoice 7" = some ⟨.processing, none, none⟩ ∧
      ¬ ((InvoiceWorld.initial String String String).process textEnv (.ok "Invoice 7") (.ok "Invoice 7")
        unconstructedVision).Completes textEnv (.ok "Invoice 7") "provider_failed" := by
  have hresult : ((InvoiceWorld.initial String String String).process textEnv (.ok "Invoice 7") (.ok "Invoice 7")
      unconstructedVision).result = .error (.unboundLocal "provider_started") := by rfl
  refine ⟨rfl, rfl, hresult, rfl, rfl, rfl, fun hcompletes => ?_⟩
  obtain ⟨_, _, _, _, -, -, -, -, hok, -⟩ := hcompletes.completed
  rw [hresult] at hok
  cases hok

end InvoiceOps
