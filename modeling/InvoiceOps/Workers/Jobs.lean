import InvoiceOps.Cases.Store

/-! One ingestion job and the workers it is delivered to (`workers/extraction/tasks.py`). `run_job` and
`record_failure` read the row of the job without a lock and write it later; a column is written when the value is not
the one that was read, whatever is stored by then. -/

namespace InvoiceOps

open StateMachine

structure IngestionJob where
  status : JobStatus
  errorCode : Option String
  errorMessage : Option String
deriving DecidableEq, Repr

/-- The row a session writes back, column by column: one it has not changed is not written. -/
def IngestionJob.write (stored loaded new : IngestionJob) : IngestionJob where
  status := if new.status = loaded.status then stored.status else new.status
  errorCode := if new.errorCode = loaded.errorCode then stored.errorCode else new.errorCode
  errorMessage := if new.errorMessage = loaded.errorMessage then stored.errorMessage else new.errorMessage

/-- Why `run_job` has not returned: an error of the extraction, or another one on a delivery with so many retries. -/
inductive JobFailure
  | extraction (e : ExtractionError)
  | operational (retries : ℕ)

def JobFailure.terminal : JobFailure → Bool
  | .extraction _ => true
  | .operational retries => decide (MAX_RETRIES ≤ retries)

/-- The row as `run_job` starts it. -/
def IngestionJob.started : IngestionJob := ⟨.processing, none, none⟩

/-- The row as `record_failure` sets it. -/
def JobFailure.row : JobFailure → IngestionJob
  | .extraction e => ⟨.failed, some (extractionErrorCode e), some (safeExtractionErrorMessage e)⟩
  | .operational retries =>
    if MAX_RETRIES ≤ retries then ⟨.failed, some "processing_failed", some "Document processing failed"⟩
    else ⟨.queued, none, none⟩

inductive JobPhase
  /-- `run_job` has read a job that has not succeeded. -/
  | read (retries : ℕ) (loaded : IngestionJob)
  /-- It has said that it has started, and processes the document. -/
  | processing (retries : ℕ)
  /-- The document is processed, and the cases with it as their active invoice are found. -/
  | processed (retries : ℕ) (cases : List Uuid)
  | raised (failure : JobFailure)
  /-- `record_failure` has read a job that has not succeeded. -/
  | failing (failure : JobFailure) (loaded : IngestionJob)
  /-- It has found the cases. -/
  | failed (failure : JobFailure) (loaded : IngestionJob) (cases : List Uuid)

/-- A case, and whether its active invoice is the document of the job. -/
structure JobCase where
  id : Uuid
  case : PayableCase
  active : Bool
deriving DecidableEq, Repr

inductive JobEffect
  | event (key : String)
  | caseStatus (id : Uuid) (status : CaseStatus)
deriving DecidableEq, Repr

structure JobWorld where
  job : IngestionJob
  effects : List JobEffect
  cases : List JobCase
  workers : ℕ → Option JobPhase

def JobWorld.initial : JobWorld := ⟨⟨.queued, none, none⟩, [], [], fun _ => none⟩

inductive JobAct
  /-- A message is delivered, and `run_job` reads the job. -/
  | deliver (i : ℕ) (retries : ℕ)
  | start (i : ℕ)
  | process (i : ℕ)
  | finish (i : ℕ)
  | raise (i : ℕ) (error : Option ExtractionError)
  | readFailure (i : ℕ)
  | findCases (i : ℕ)
  | recordFailure (i : ℕ)
  | lose (i : ℕ)
  /-- Requests and other workers change the cases. -/
  | others (cases : List JobCase)

section

variable (w : JobWorld) (i : ℕ)

def JobWorld.enter (phase : JobPhase) : JobWorld := { w with workers := Function.update w.workers i (some phase) }

def JobWorld.leave : JobWorld := { w with workers := Function.update w.workers i none }

/-- `append_job_event`: a key is used once. -/
def appendEvent (effects : List JobEffect) (key : String) : List JobEffect :=
  if .event key ∈ effects then effects else effects ++ [.event key]

def JobWorld.activeCases : List Uuid := (w.cases.filter (·.active)).map (·.id)

/-- The status of the cases with these ids is set where `p` holds of the one they have. -/
def JobWorld.setCases (ids : List Uuid) (p : CaseStatus → Bool) (status : CaseStatus) : JobWorld :=
  let moved := fun c : JobCase => decide (c.id ∈ ids) && p c.case.status
  { w with
    cases := w.cases.map fun c => if moved c then { c with case := ⟨status, c.case.version + 1⟩ } else c
    effects := w.effects ++ (w.cases.filter moved).map fun c => .caseStatus c.id status }

/-- The first transaction of `run_job`. -/
def JobWorld.start (retries : ℕ) (loaded : IngestionJob) : JobWorld :=
  JobWorld.enter
    { w with
      job := w.job.write loaded .started
      effects := appendEvent w.effects "extraction.started" } i (.processing retries)

/-- The last transaction of `run_job`. -/
def JobWorld.finish (cases : List Uuid) : JobWorld :=
  JobWorld.leave
    (JobWorld.setCases
      { w with
        job := w.job.write .started { IngestionJob.started with status := .succeeded }
        effects := appendEvent (appendEvent w.effects "extraction.completed") "processing.completed" }
      cases (fun status => decide (status = .processing)) .needsConfirmation) i

/-- The transaction of `record_failure`. -/
def JobWorld.recordFailure (failure : JobFailure) (loaded : IngestionJob) (cases : List Uuid) : JobWorld :=
  let w' := { w with job := w.job.write loaded failure.row }
  if failure.terminal = true then
    JobWorld.leave
      (JobWorld.setCases { w' with effects := appendEvent w.effects "processing.failed" } cases
        (fun status => decide (status ≠ .failed)) .failed) i
  else w'.leave i

def JobWorld.next : JobAct → Option JobWorld
  | .deliver i retries =>
    match w.workers i with
    | some _ => none
    | none => if w.job.status = .succeeded then some w else some (w.enter i (.read retries w.job))
  | .start i =>
    match w.workers i with
    | some (.read retries loaded) => some (w.start i retries loaded)
    | _ => none
  | .process i =>
    match w.workers i with
    | some (.processing retries) => some (w.enter i (.processed retries w.activeCases))
    | _ => none
  | .finish i =>
    match w.workers i with
    | some (.processed _ cases) => some (w.finish i cases)
    | _ => none
  | .raise i error =>
    match w.workers i with
    | some (.read retries _) | some (.processed retries _) => some (w.enter i (.raised (.operational retries)))
    | some (.processing retries) => some (w.enter i (.raised ((error.map .extraction).getD (.operational retries))))
    | _ => none
  | .readFailure i =>
    match w.workers i with
    | some (.raised failure) => some (if w.job.status = .succeeded then w.leave i else w.enter i (.failing failure w.job))
    | _ => none
  | .findCases i =>
    match w.workers i with
    | some (.failing failure loaded) =>
      some (w.enter i (.failed failure loaded (if failure.terminal = true then w.activeCases else [])))
    | _ => none
  | .recordFailure i =>
    match w.workers i with
    | some (.failed failure loaded cases) => some (w.recordFailure i failure loaded cases)
    | _ => none
  | .lose i => some (w.leave i)
  | .others cases => some { w with cases := cases }

end

def JobEffect.isFailure : JobEffect → Bool
  | .event key => decide (key = "processing.failed")
  | .caseStatus _ status => decide (status = .failed)

/-- The row of the job is as before, and no failure has been committed since. -/
structure JobKept (w w' : JobWorld) : Prop where
  job : w'.job = w.job
  effects : ∃ added, w'.effects = w.effects ++ added ∧ ∀ e ∈ added, e.isFailure = false

/-- A row with this status and no error, written by a session that has loaded `loaded`, leaves a stored row as it
is: the status was the same, and there is no error to overwrite or none that is written. -/
def IngestionJob.leaves (stored loaded : IngestionJob) (status : JobStatus) : Bool :=
  decide (loaded.status = status) && (decide (loaded.errorCode = none) || decide (stored.errorCode = none)) &&
    (decide (loaded.errorMessage = none) || decide (stored.errorMessage = none))

def JobWorld.harmless (w : JobWorld) : JobPhase → Bool
  | .read _ loaded => w.job.leaves loaded .processing
  | .failed failure loaded _ => !failure.terminal && w.job.leaves loaded .queued
  | _ => true

def JobWorld.writing (w : JobWorld) : JobAct → Option JobPhase
  | .start i | .recordFailure i => w.workers i
  | _ => none

/-- The job has not succeeded since the worker has read it, or what it commits does no harm. -/
def JobWorld.Careful (w : JobWorld) (a : JobAct) : Prop :=
  w.job.status = .succeeded → ∀ phase ∈ w.writing a, w.harmless phase = true

instance (w : JobWorld) (a : JobAct) : Decidable (w.Careful a) :=
  inferInstanceAs (Decidable (_ → ∀ phase ∈ w.writing a, _))

section

variable {w w' w'' : JobWorld} {a : JobAct} {i : ℕ}

theorem JobKept.refl (w : JobWorld) : JobKept w w := ⟨rfl, [], by simp, by simp⟩

theorem JobKept.trans (h : JobKept w w') (h' : JobKept w' w'') : JobKept w w'' := by
  obtain ⟨added, heffects, hadded⟩ := h.effects
  obtain ⟨added', heffects', hadded'⟩ := h'.effects
  refine ⟨h'.job.trans h.job, added ++ added', by rw [heffects', heffects, List.append_assoc], fun e he => ?_⟩
  exact (List.mem_append.1 he).elim (hadded e) (hadded' e)

theorem JobKept.of_eq (hjob : w'.job = w.job) (heffects : w'.effects = w.effects) : JobKept w w' :=
  ⟨hjob, [], by simp [heffects], by simp⟩

theorem write_of_leaves {stored loaded : IngestionJob} {status : JobStatus} (h : stored.leaves loaded status = true) :
    stored.write loaded ⟨status, none, none⟩ = stored := by
  obtain ⟨s, c, m⟩ := stored
  obtain ⟨s', c', m'⟩ := loaded
  simp only [IngestionJob.leaves, Bool.and_eq_true, Bool.or_eq_true, decide_eq_true_eq] at h
  obtain ⟨⟨rfl, hcode⟩, hmessage⟩ := h
  simp only [IngestionJob.write, IngestionJob.mk.injEq, if_true, true_and]
  constructor
  · rcases hcode with rfl | rfl
    · simp
    · simp
  · rcases hmessage with rfl | rfl
    · simp
    · simp

theorem kept_event {key : String} (hkey : key ≠ "processing.failed") :
    JobKept w { w with effects := appendEvent w.effects key } := by
  unfold appendEvent
  split_ifs
  · exact .of_eq rfl rfl
  · refine ⟨rfl, [.event key], rfl, fun e he => ?_⟩
    rw [List.mem_singleton.1 he]
    simpa [JobEffect.isFailure] using hkey

theorem kept_setCases (ids : List Uuid) (p : CaseStatus → Bool) {status : CaseStatus} (hstatus : status ≠ .failed) :
    JobKept w (w.setCases ids p status) := by
  refine ⟨rfl, _, rfl, fun e he => ?_⟩
  obtain ⟨c, -, rfl⟩ := List.mem_map.1 he
  simpa [JobEffect.isFailure] using hstatus

theorem kept_start {retries : ℕ} {loaded : IngestionJob} (h : w.job.leaves loaded .processing = true) :
    JobKept w (w.start i retries loaded) := by
  have hevent : JobKept w { w with effects := appendEvent w.effects "extraction.started" } := kept_event (by decide)
  exact hevent.trans (.of_eq (write_of_leaves h) rfl)

theorem kept_finish {cases : List Uuid} (h : w.job.status = .succeeded) : JobKept w (w.finish i cases) := by
  have hjob : w.job.write .started { IngestionJob.started with status := .succeeded } = w.job := by
    simp [IngestionJob.write, IngestionJob.started, ← h]
  have hextracted : JobKept w { w with effects := appendEvent w.effects "extraction.completed" } :=
    kept_event (by decide)
  have hcompleted : "processing.completed" ≠ "processing.failed" := by decide
  refine (hextracted.trans (kept_event hcompleted)).trans ?_
  unfold JobWorld.finish
  rw [hjob]
  have hstatus : CaseStatus.needsConfirmation ≠ .failed := by decide
  refine (kept_setCases cases (fun status => decide (status = .processing)) hstatus).trans ?_
  exact .of_eq rfl rfl

theorem kept_recordFailure {failure : JobFailure} {loaded : IngestionJob} {cases : List Uuid}
    (hterminal : failure.terminal = false) (h : w.job.leaves loaded .queued = true) :
    JobKept w (w.recordFailure i failure loaded cases) := by
  have hrow : failure.row = ⟨.queued, none, none⟩ := by
    cases failure with
    | extraction e => cases hterminal
    | operational retries => exact if_neg (of_decide_eq_false hterminal)
  unfold JobWorld.recordFailure
  dsimp only
  rw [if_neg (by simp [hterminal]), hrow]
  exact .of_eq (write_of_leaves h) rfl

theorem kept_step (hsucceeded : w.job.status = .succeeded) (hC : w.Careful a) (hn : w.next a = some w') :
    JobKept w w' := by
  have hwrites := hC hsucceeded
  cases a with
  | deliver i retries =>
    simp only [JobWorld.next, if_pos hsucceeded] at hn
    split at hn
    · cases hn
    · exact Option.some.inj hn ▸ .refl w
  | start i =>
    simp only [JobWorld.next] at hn
    split at hn
    · next retries loaded hi => exact Option.some.inj hn ▸ kept_start (hwrites _ hi)
    · cases hn
  | process i =>
    simp only [JobWorld.next] at hn
    split at hn
    · exact Option.some.inj hn ▸ .of_eq rfl rfl
    · cases hn
  | finish i =>
    simp only [JobWorld.next] at hn
    split at hn
    · exact Option.some.inj hn ▸ kept_finish hsucceeded
    · cases hn
  | raise i error =>
    simp only [JobWorld.next] at hn
    split at hn
    · exact Option.some.inj hn ▸ .of_eq rfl rfl
    · exact Option.some.inj hn ▸ .of_eq rfl rfl
    · exact Option.some.inj hn ▸ .of_eq rfl rfl
    · cases hn
  | readFailure i =>
    simp only [JobWorld.next, if_pos hsucceeded] at hn
    split at hn
    · exact Option.some.inj hn ▸ .of_eq rfl rfl
    · cases hn
  | findCases i =>
    simp only [JobWorld.next] at hn
    split at hn
    · exact Option.some.inj hn ▸ .of_eq rfl rfl
    · cases hn
  | recordFailure i =>
    simp only [JobWorld.next] at hn
    split at hn
    · next failure loaded cases hi =>
      have hharmless := hwrites _ hi
      simp only [JobWorld.harmless, Bool.and_eq_true, Bool.not_eq_true'] at hharmless
      exact Option.some.inj hn ▸ kept_recordFailure hharmless.1 hharmless.2
    · cases hn
  | lose i => exact Option.some.inj hn ▸ .of_eq rfl rfl
  | others cases => exact Option.some.inj hn ▸ .of_eq rfl rfl

end

/-- As long as no worker writes over a job that has succeeded since it has read it: once the job has succeeded, its
status and its error stay as they are over every interleaving of deliveries, retries and failures, and neither a
failure event nor a failed case is committed for it any more. -/
theorem job_succeeded_kept {acts : List JobAct} {w w' : JobWorld} (hsucceeded : w.job.status = .succeeded)
    (h : Steps (restrict JobWorld.Careful JobWorld.next) w acts w') : JobKept w w' := by
  refine h.relates (I := fun w => w.job.status = .succeeded) (R := JobKept) (fun s a t hs hn => ?_) JobKept.refl
    (fun _ _ _ => JobKept.trans) (fun s a t hs hn => ?_) hsucceeded
  · obtain ⟨hC, hn⟩ := restrict_eq_some.1 hn
    rw [(kept_step hs hC hn).job]
    exact hs
  · obtain ⟨hC, hn⟩ := restrict_eq_some.1 hn
    exact kept_step hs hC hn

/-- Worker `0` processes the document of the job. -/
def jobActs : List JobAct := [.deliver 0 0, .start 0, .process 0, .finish 0]

/-- The message is delivered again, while another worker fails to start. -/
theorem job_succeeded_kept_redelivered : ∃ w w', Steps (restrict JobWorld.Careful JobWorld.next) .initial
      ([.deliver 1 0, .raise 1 none] ++ jobActs) w ∧
    Steps (restrict JobWorld.Careful JobWorld.next) w [.readFailure 1, .deliver 0 0] w' ∧
    w.job = ⟨.succeeded, none, none⟩ ∧ JobKept w w' := by
  have hexec : (exec (restrict JobWorld.Careful JobWorld.next) .initial ([.deliver 1 0, .raise 1 none] ++ jobActs)).any
      (fun w => w.job = ⟨.succeeded, none, none⟩ ∧
        (exec (restrict JobWorld.Careful JobWorld.next) w [.readFailure 1, .deliver 0 0]).isSome) = true := by
    decide +kernel
  obtain ⟨w, hw, hexec⟩ := (Option.any_eq_true _ _).1 hexec
  obtain ⟨hjob, hsome⟩ := of_decide_eq_true hexec
  obtain ⟨w', hw'⟩ := Option.isSome_iff_exists.1 hsome
  exact ⟨w, w', .of_exec hw, .of_exec hw', hjob,
    job_succeeded_kept (congrArg IngestionJob.status hjob) (.of_exec hw')⟩

/-- Worker `1` has read the job before worker `0` succeeds, and cannot read the document. -/
def lateFailureActs : List JobAct :=
  [.start 1, .raise 1 (some .unreadableDocument), .readFailure 1, .findCases 1, .recordFailure 1]

/-- The job that has succeeded is failed, with its case. -/
theorem job_succeeded_failed : ∃ w w', Steps JobWorld.next .initial
      ([.others [⟨Uuid.ofNat 1, ⟨.processing, 2⟩, true⟩], .deliver 1 0] ++ jobActs) w ∧
    Steps JobWorld.next w lateFailureActs w' ∧ w.job = ⟨.succeeded, none, none⟩ ∧
    w'.job = ⟨.failed, some "document_unreadable", some "The document could not be read"⟩ ∧
    .caseStatus (Uuid.ofNat 1) .failed ∉ w.effects ∧ .caseStatus (Uuid.ofNat 1) .failed ∈ w'.effects ∧
    .event "processing.failed" ∉ w.effects ∧ .event "processing.failed" ∈ w'.effects := by
  have hexec : (exec JobWorld.next .initial ([.others [⟨Uuid.ofNat 1, ⟨.processing, 2⟩, true⟩], .deliver 1 0] ++ jobActs)).any
      (fun w => w.job = ⟨.succeeded, none, none⟩ ∧ .caseStatus (Uuid.ofNat 1) .failed ∉ w.effects ∧
        .event "processing.failed" ∉ w.effects ∧ (exec JobWorld.next w lateFailureActs).any fun w' =>
          w'.job = ⟨.failed, some "document_unreadable", some "The document could not be read"⟩ ∧
          .caseStatus (Uuid.ofNat 1) .failed ∈ w'.effects ∧ .event "processing.failed" ∈ w'.effects) = true := by
    decide +kernel
  obtain ⟨w, hw, hexec⟩ := (Option.any_eq_true _ _).1 hexec
  obtain ⟨hjob, hcase, hevent, hexec⟩ := of_decide_eq_true hexec
  obtain ⟨w', hw', hexec⟩ := (Option.any_eq_true _ _).1 hexec
  obtain ⟨hjob', hcase', hevent'⟩ := of_decide_eq_true hexec
  exact ⟨w, w', .of_exec hw, .of_exec hw', hjob, hjob', hcase, hcase', hevent, hevent'⟩

end InvoiceOps
