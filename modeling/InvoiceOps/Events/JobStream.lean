import InvoiceOps.Lib.Lists
import InvoiceOps.Workers.Jobs

/-! The event stream of a job (`stream_job_events` in `apps/api/main.py`) beside the workers of the job. A poll is two
statements: the events after the last one sent, and then the row of the job. A poll that has found no event ends the
stream when the row says that the job has ended, which a worker may have committed in between together with the event
the stream should have sent. -/

namespace InvoiceOps

open StateMachine

structure SseSettings where
  batchSize : ℕ
  one_le : 1 ≤ batchSize
  le_hundred : batchSize ≤ 100

/-- `TERMINAL_EVENT_TYPES`, by the keys of the events. -/
def terminalKey (key : String) : Bool := decide (key = "processing.completed" ∨ key = "processing.failed")

def JobEffect.eventKey : JobEffect → Option String
  | .event key => some key
  | .caseStatus .. => none

/-- The keys of the committed events of the job: those of its upload, and what the workers have appended. -/
def JobWorld.events (w : JobWorld) : List String :=
  ["upload.accepted", "document.validated"] ++ w.effects.filterMap JobEffect.eventKey

/-- The events with their sequence numbers. -/
def JobWorld.numbered (w : JobWorld) : List (ℕ × String) := w.events.zipIdx.map fun e => (e.2 + 1, e.1)

/-- `list_job_events` -/
def JobWorld.listJobEvents (w : JobWorld) (afterSequence limit : ℕ) : List (ℕ × String) :=
  (w.numbered.filter fun e => afterSequence < e.1).take limit

/-- The job has succeeded or failed. -/
def JobWorld.ended (w : JobWorld) : Bool := decide (w.job.status = .succeeded ∨ w.job.status = .failed)

inductive JobStreamPhase
  /-- Before the next poll. -/
  | waiting
  /-- The events are read. -/
  | polled (batch : List (ℕ × String))
  /-- The row of the job is read too. -/
  | sending (batch : List (ℕ × String))
  | ended
  | disconnected
deriving DecidableEq

structure JobStream where
  start : ℕ
  sequence : ℕ
  sent : List (ℕ × String)
  phase : JobStreamPhase

structure JobStreamWorld where
  jobs : JobWorld
  streams : ℕ → Option JobStream

def JobStreamWorld.initial : JobStreamWorld := ⟨.initial, fun _ => none⟩

inductive JobStreamAct
  | worker (a : JobAct)
  /-- A request with a `Last-Event-ID`, or 0. -/
  | connect (c start : ℕ)
  | readEvents (c : ℕ)
  | readJob (c : ℕ)
  | send (c : ℕ)
  | disconnect (c : ℕ)

section

variable (S : SseSettings) (w : JobStreamWorld)

def JobStreamWorld.withStream (c : ℕ) (f : JobStream → Option JobStream) : Option JobStreamWorld :=
  (w.streams c).bind fun s => (f s).map fun s' => { w with streams := Function.update w.streams c (some s') }

def JobStream.readEvents (jobs : JobWorld) (s : JobStream) : Option JobStream :=
  match s.phase with
  | .waiting => some { s with phase := .polled (jobs.listJobEvents s.sequence S.batchSize) }
  | _ => none

/-- A job that has ended ends the stream when no event was found. -/
def JobStream.readJob (jobs : JobWorld) (s : JobStream) : Option JobStream :=
  match s.phase with
  | .polled [] => some { s with phase := if jobs.ended then .ended else .waiting }
  | .polled batch => some { s with phase := .sending batch }
  | _ => none

/-- The next event of the batch; a terminal one is the last. -/
def JobStream.send (s : JobStream) : Option JobStream :=
  match s.phase with
  | .sending (e :: rest) => some
      { s with
        sequence := e.1
        sent := s.sent ++ [e]
        phase := if terminalKey e.2 then .ended else .sending rest }
  | .sending [] => some { s with phase := .waiting }
  | _ => none

def JobStream.disconnect (s : JobStream) : Option JobStream :=
  match s.phase with
  | .ended => none
  | _ => some { s with phase := .disconnected }

def JobStreamWorld.next : JobStreamAct → Option JobStreamWorld
  | .worker a => (w.jobs.next a).map fun jobs => { w with jobs := jobs }
  | .connect c start =>
    if (w.streams c).isNone then some { w with streams := Function.update w.streams c (some ⟨start, start, [], .waiting⟩) }
    else none
  | .readEvents c => w.withStream c (JobStream.readEvents S w.jobs)
  | .readJob c => w.withStream c (JobStream.readJob w.jobs)
  | .send c => w.withStream c JobStream.send
  | .disconnect c => w.withStream c JobStream.disconnect

end

/-- A poll that has found no event does not find a job that has ended together with a terminal event the poll has
missed. -/
def JobStreamWorld.Undisturbed (w : JobStreamWorld) : JobStreamAct → Prop
  | .readJob c => ∀ s ∈ w.streams c, s.phase = .polled [] → w.jobs.ended = true →
      ∀ e ∈ w.jobs.numbered, terminalKey e.2 = true → e.1 ≤ s.sequence
  | _ => True

instance JobStreamWorld.decidableUndisturbed (w : JobStreamWorld) (a : JobStreamAct) : Decidable (w.Undisturbed a) :=
  match a with
  | .readJob c => inferInstanceAs (Decidable (∀ s ∈ w.streams c, s.phase = .polled [] → w.jobs.ended = true →
      ∀ e ∈ w.jobs.numbered, terminalKey e.2 = true → e.1 ≤ s.sequence))
  | .worker _ | .connect .. | .readEvents _ | .send _ | .disconnect _ => isTrue trivial

/-- A job that has ended has a terminal event. -/
def JobWorld.EndsWithEvent (w : JobWorld) : Prop := w.ended = true → ∃ key ∈ w.events, terminalKey key = true

/-- Events are only appended, and an end comes with its event. -/
structure JobGrows (w w' : JobWorld) : Prop where
  events : w.events <+: w'.events
  ends : w.EndsWithEvent → w'.EndsWithEvent

section

variable {w w' : JobWorld} {a : JobAct} {i : ℕ}

theorem events_prefix_of_effects (h : w.effects <+: w'.effects) : w.events <+: w'.events := by
  obtain ⟨added, hadded⟩ := h
  refine ⟨added.filterMap JobEffect.eventKey, ?_⟩
  rw [JobWorld.events, JobWorld.events, ← hadded, List.filterMap_append, List.append_assoc]

theorem effects_prefix_appendEvent (effects : List JobEffect) (key : String) :
    effects <+: appendEvent effects key := by
  unfold appendEvent
  split_ifs
  · exact List.prefix_refl _
  · exact List.prefix_append _ _

theorem mem_appendEvent (effects : List JobEffect) (key : String) : .event key ∈ appendEvent effects key := by
  unfold appendEvent
  split_ifs with h
  · exact h
  · exact List.mem_append_right _ (List.mem_singleton.2 rfl)

theorem mem_events {key : String} (h : .event key ∈ w.effects) : key ∈ w.events :=
  List.mem_append_right _ (List.mem_filterMap.2 ⟨_, h, rfl⟩)

/-- A step that leaves the row of the job. -/
theorem JobGrows.of_job (hjob : w'.job = w.job) (heffects : w.effects <+: w'.effects) : JobGrows w w' := by
  have hevents := events_prefix_of_effects heffects
  refine ⟨hevents, fun h hended => ?_⟩
  unfold JobWorld.ended at hended
  rw [hjob] at hended
  obtain ⟨key, hkey, hterminal⟩ := h hended
  exact ⟨key, hevents.subset hkey, hterminal⟩

/-- A row that is written keeps the stored status or gets one that is no end. -/
theorem JobGrows.of_status (status : JobStatus) (hstatus : w'.job.status = w.job.status ∨ w'.job.status = status)
    (hne : status ≠ .succeeded ∧ status ≠ .failed) (heffects : w.effects <+: w'.effects) : JobGrows w w' := by
  have hevents := events_prefix_of_effects heffects
  refine ⟨hevents, fun h hended => ?_⟩
  unfold JobWorld.ended at hended
  rcases hstatus with hsame | hnew
  · rw [hsame] at hended
    obtain ⟨key, hkey, hterminal⟩ := h hended
    exact ⟨key, hevents.subset hkey, hterminal⟩
  · rw [hnew] at hended
    rcases of_decide_eq_true hended with h' | h'
    · exact absurd h' hne.1
    · exact absurd h' hne.2

/-- A step that commits a terminal event. -/
theorem JobGrows.of_event (key : String) (hkey : terminalKey key = true) (hmem : .event key ∈ w'.effects)
    (heffects : w.effects <+: w'.effects) : JobGrows w w' :=
  ⟨events_prefix_of_effects heffects, fun _ _ => ⟨key, mem_events hmem, hkey⟩⟩

theorem jobStatus_write (stored loaded new : IngestionJob) :
    (stored.write loaded new).status = stored.status ∨ (stored.write loaded new).status = new.status := by
  simp only [IngestionJob.write]
  split_ifs
  · exact .inl rfl
  · exact .inr rfl

theorem grows_finish {cases : List Uuid} : JobGrows w (w.finish i cases) := by
  have hfirst := effects_prefix_appendEvent w.effects "extraction.completed"
  have hsecond := effects_prefix_appendEvent (appendEvent w.effects "extraction.completed") "processing.completed"
  refine .of_event "processing.completed" (by decide) (List.mem_append_left _ (mem_appendEvent _ _)) ?_
  exact (hfirst.trans hsecond).trans (List.prefix_append _ _)

theorem grows_recordFailure {failure : JobFailure} {loaded : IngestionJob} {cases : List Uuid} :
    JobGrows w (w.recordFailure i failure loaded cases) := by
  unfold JobWorld.recordFailure
  dsimp only
  split_ifs with hterminal
  · refine .of_event "processing.failed" (by decide) (List.mem_append_left _ (mem_appendEvent _ _)) ?_
    exact (effects_prefix_appendEvent w.effects "processing.failed").trans (List.prefix_append _ _)
  · have hrow : failure.row.status = .queued := by
      cases failure with
      | extraction e => exact absurd rfl hterminal
      | operational retries =>
        have hretries : ¬ MAX_RETRIES ≤ retries := fun h => hterminal (decide_eq_true h)
        simp only [JobFailure.row, if_neg hretries]
    refine .of_status .queued ?_ (by decide) (List.prefix_refl _)
    rw [← hrow]
    exact jobStatus_write _ _ _

theorem grows_step (hn : w.next a = some w') : JobGrows w w' := by
  cases a with
  | deliver i retries =>
    simp only [JobWorld.next] at hn
    split at hn
    · cases hn
    · split_ifs at hn
      · exact Option.some.inj hn ▸ .of_job rfl (List.prefix_refl _)
      · exact Option.some.inj hn ▸ .of_job rfl (List.prefix_refl _)
  | start i =>
    simp only [JobWorld.next] at hn
    split at hn
    · next retries loaded hi =>
      obtain rfl := Option.some.inj hn
      exact .of_status .processing (jobStatus_write _ _ _) (by decide) (effects_prefix_appendEvent _ _)
    · cases hn
  | process i =>
    simp only [JobWorld.next] at hn
    split at hn
    · exact Option.some.inj hn ▸ .of_job rfl (List.prefix_refl _)
    · cases hn
  | finish i =>
    simp only [JobWorld.next] at hn
    split at hn
    · exact Option.some.inj hn ▸ grows_finish
    · cases hn
  | raise i error =>
    simp only [JobWorld.next] at hn
    split at hn
    · exact Option.some.inj hn ▸ .of_job rfl (List.prefix_refl _)
    · exact Option.some.inj hn ▸ .of_job rfl (List.prefix_refl _)
    · exact Option.some.inj hn ▸ .of_job rfl (List.prefix_refl _)
    · cases hn
  | readFailure i =>
    simp only [JobWorld.next] at hn
    split at hn
    · split_ifs at hn
      · exact Option.some.inj hn ▸ .of_job rfl (List.prefix_refl _)
      · exact Option.some.inj hn ▸ .of_job rfl (List.prefix_refl _)
    · cases hn
  | findCases i =>
    simp only [JobWorld.next] at hn
    split at hn
    · exact Option.some.inj hn ▸ .of_job rfl (List.prefix_refl _)
    · cases hn
  | recordFailure i =>
    simp only [JobWorld.next] at hn
    split at hn
    · exact Option.some.inj hn ▸ grows_recordFailure
    · cases hn
  | lose i => exact Option.some.inj hn ▸ .of_job rfl (List.prefix_refl _)
  | others cases => exact Option.some.inj hn ▸ .of_job rfl (List.prefix_refl _)

end

/-- A stream has not gone past a terminal event that comes after its start without sending it. -/
structure JobStream.Ok (jobs : JobWorld) (s : JobStream) : Prop where
  place : s.sequence = s.start ∨ s.sequence ≤ jobs.events.length
  passed : (∀ e ∈ s.sent, terminalKey e.2 = false) → ∀ e ∈ jobs.numbered, terminalKey e.2 = true → s.start < e.1 →
    s.sequence < e.1
  batch : ∀ batch, s.phase = .polled batch ∨ s.phase = .sending batch →
    batch <+: jobs.numbered.filter fun e => s.sequence < e.1
  ended : s.phase = .ended →
    (∃ e ∈ s.sent, terminalKey e.2 = true) ∨ ∃ e ∈ jobs.numbered, terminalKey e.2 = true ∧ e.1 ≤ s.start

structure JobStreamWorld.Inv (w : JobStreamWorld) : Prop where
  ends : w.jobs.EndsWithEvent
  streams : ∀ c s, w.streams c = some s → s.Ok w.jobs

section

variable {S : SseSettings} {w w' : JobStreamWorld} {jobs jobs' : JobWorld} {s s' : JobStream}

theorem mem_numbered {n : ℕ} {key : String} : (n, key) ∈ jobs.numbered ↔ 1 ≤ n ∧ jobs.events[n - 1]? = some key := by
  unfold JobWorld.numbered
  rw [List.mem_map]
  constructor
  · rintro ⟨e, he, heq⟩
    obtain ⟨rfl, rfl⟩ := Prod.mk.inj heq
    exact ⟨by omega, List.mk_mem_zipIdx_iff_getElem?.1 he⟩
  · rintro ⟨hn, hkey⟩
    refine ⟨(key, n - 1), List.mk_mem_zipIdx_iff_getElem?.2 hkey, ?_⟩
    rw [Nat.sub_add_cancel hn]

/-- Events that are added come after those that were there. -/
theorem numbered_of_grows (h : jobs.events <+: jobs'.events) :
    ∃ added, jobs'.numbered = jobs.numbered ++ added ∧ ∀ e ∈ added, jobs.events.length < e.1 := by
  obtain ⟨events, hevents⟩ := h
  refine ⟨(events.zipIdx jobs.events.length).map fun e => (e.2 + 1, e.1), ?_, fun e he => ?_⟩
  · unfold JobWorld.numbered
    rw [← hevents, List.zipIdx_append, List.map_append, Nat.zero_add]
  · obtain ⟨x, hx, rfl⟩ := List.mem_map.1 he
    have hle := List.le_snd_of_mem_zipIdx hx
    exact Nat.lt_succ_of_le hle

theorem numbered_increasing (jobs : JobWorld) : jobs.numbered.Pairwise fun a b => a.1 < b.1 := by
  unfold JobWorld.numbered
  rw [List.pairwise_map]
  have hrange : (jobs.events.zipIdx.map Prod.snd).Pairwise (· < ·) := by
    rw [List.zipIdx_map_snd]
    exact List.pairwise_lt_range'
  rw [List.pairwise_map] at hrange
  exact hrange.imp fun h => Nat.succ_lt_succ h

/-- What workers commit does not take a stream out of its place. -/
theorem JobStream.Ok.grows (h : s.Ok jobs) (hevents : jobs.events <+: jobs'.events) : s.Ok jobs' := by
  obtain ⟨added, hadded, hafter⟩ := numbered_of_grows hevents
  refine ⟨h.place.imp_right fun hle => hle.trans hevents.length_le, fun hsent e he hterminal hstart => ?_,
    fun batch hbatch => ?_, fun hphase => (h.ended hphase).imp_right fun hsent => ?_⟩
  · rw [hadded] at he
    rcases List.mem_append.1 he with hold | hnew
    · exact h.passed hsent e hold hterminal hstart
    · rcases h.place with hplace | hplace
      · rw [hplace]
        exact hstart
      · exact hplace.trans_lt (hafter e hnew)
  · rw [hadded, List.filter_append]
    exact (h.batch batch hbatch).trans (List.prefix_append _ _)
  · obtain ⟨e, he, hrest⟩ := hsent
    refine ⟨e, ?_, hrest⟩
    rw [hadded]
    exact List.mem_append_left _ he

theorem ok_connect (jobs : JobWorld) (start : ℕ) : JobStream.Ok jobs ⟨start, start, [], .waiting⟩ where
  place := .inl rfl
  passed _ _ _ _ h := h
  batch batch h := by
    rcases h with h | h
    · cases h
    · cases h
  ended h := by cases h

theorem JobStream.Ok.readEvents (h : s.Ok jobs) (hn : s.readEvents S jobs = some s') : s'.Ok jobs := by
  unfold JobStream.readEvents at hn
  split at hn
  · obtain rfl := Option.some.inj hn
    refine ⟨h.place, h.passed, fun batch hbatch => ?_, fun hphase => by cases hphase⟩
    rcases hbatch with hbatch | hbatch
    · obtain rfl := JobStreamPhase.polled.inj hbatch
      exact List.take_prefix _ _
    · cases hbatch
  · cases hn

/-- The row of the job ends a stream only where the terminal event lies before its start. -/
theorem JobStream.Ok.readJob (h : s.Ok jobs) (hends : jobs.EndsWithEvent)
    (hC : s.phase = .polled [] → jobs.ended = true → ∀ e ∈ jobs.numbered, terminalKey e.2 = true → e.1 ≤ s.sequence)
    (hn : s.readJob jobs = some s') : s'.Ok jobs := by
  unfold JobStream.readJob at hn
  split at hn
  · next hphase =>
    obtain rfl := Option.some.inj hn
    refine ⟨h.place, h.passed, fun batch hbatch => ?_, fun hended => ?_⟩
    · dsimp only at hbatch
      split_ifs at hbatch
      · rcases hbatch with hbatch | hbatch
        · cases hbatch
        · cases hbatch
      · rcases hbatch with hbatch | hbatch
        · cases hbatch
        · cases hbatch
    · dsimp only at hended
      split_ifs at hended with hjob
      obtain ⟨key, hkey, hterminal⟩ := hends hjob
      obtain ⟨n, hn⟩ := List.mem_iff_getElem?.1 hkey
      have hmem : (n + 1, key) ∈ jobs.numbered := mem_numbered.2 ⟨by omega, hn⟩
      by_cases hsent : ∀ e ∈ s.sent, terminalKey e.2 = false
      · refine .inr ⟨_, hmem, hterminal, ?_⟩
        by_contra hlt
        have hpassed := h.passed hsent _ hmem hterminal (not_le.1 hlt)
        exact absurd (hC hphase hjob _ hmem hterminal) (not_le.2 hpassed)
      · push Not at hsent
        obtain ⟨e, he, hterminal⟩ := hsent
        exact .inl ⟨e, he, by simpa using hterminal⟩
  · next batch hbatch hphase =>
    obtain rfl := Option.some.inj hn
    refine ⟨h.place, h.passed, fun batch' hbatch' => ?_, fun hended => by cases hended⟩
    rcases hbatch' with hbatch' | hbatch'
    · cases hbatch'
    · obtain rfl := JobStreamPhase.sending.inj hbatch'
      exact h.batch _ (.inl hphase)
  · cases hn

/-- After an event is sent, the rest of the batch comes after it. -/
theorem JobStream.Ok.send (h : s.Ok jobs) (hn : s.send = some s') : s'.Ok jobs := by
  unfold JobStream.send at hn
  split at hn
  · next e rest hphase =>
    obtain rfl := Option.some.inj hn
    obtain ⟨tail, htail⟩ := h.batch _ (.inr hphase)
    rw [List.cons_append] at htail
    have hincreasing : (e :: (rest ++ tail)).Pairwise fun a b => a.1 < b.1 := by
      rw [htail]
      exact (numbered_increasing jobs).filter _
    have hmem : e ∈ jobs.numbered.filter fun x => s.sequence < x.1 := by
      rw [← htail]
      exact List.mem_cons_self
    obtain ⟨hnumbered, hlt⟩ := List.mem_filter.1 hmem
    have hlt : s.sequence < e.1 := of_decide_eq_true hlt
    have hafter : ∀ x ∈ jobs.numbered, s.sequence < x.1 → x = e ∨ x ∈ rest ++ tail := fun x hx hx' =>
      List.mem_cons.1 (htail ▸ List.mem_filter.2 ⟨hx, decide_eq_true hx'⟩)
    have hrest : rest ++ tail = jobs.numbered.filter fun x => e.1 < x.1 := by
      have hfilter : (jobs.numbered.filter fun x => s.sequence < x.1).filter (fun x => e.1 < x.1) =
          jobs.numbered.filter fun x => e.1 < x.1 := by
        rw [List.filter_filter]
        refine List.filter_congr fun x _ => ?_
        simp only [← Bool.decide_and, decide_eq_decide]
        exact ⟨fun hx => hx.1, fun hx => ⟨hx, hlt.trans hx⟩⟩
      rw [← hfilter, ← htail, List.filter_cons_of_neg (by simp)]
      refine (List.filter_eq_self.2 fun x hx => ?_).symm
      exact decide_eq_true ((List.pairwise_cons.1 hincreasing).1 x hx)
    refine ⟨.inr ?_, fun hsent x hx hterminal hstart => ?_, fun batch hbatch => ?_, fun hended => ?_⟩
    · obtain ⟨n, key⟩ := e
      obtain ⟨hn, hkey⟩ := mem_numbered.1 hnumbered
      obtain ⟨hlength, -⟩ := List.getElem?_eq_some_iff.1 hkey
      show n ≤ jobs.events.length
      omega
    · have hold : ∀ y ∈ s.sent, terminalKey y.2 = false := fun y hy => hsent y (List.mem_append_left _ hy)
      have hself : terminalKey e.2 = false := hsent e (List.mem_append_right _ (List.mem_singleton.2 rfl))
      rcases hafter x hx (h.passed hold x hx hterminal hstart) with rfl | hx'
      · rw [hself] at hterminal
        cases hterminal
      · exact (List.pairwise_cons.1 hincreasing).1 x hx'
    · dsimp only at hbatch
      split_ifs at hbatch
      · rcases hbatch with hbatch | hbatch
        · cases hbatch
        · cases hbatch
      · rcases hbatch with hbatch | hbatch
        · cases hbatch
        · obtain rfl := JobStreamPhase.sending.inj hbatch
          exact ⟨tail, hrest⟩
    · dsimp only at hended
      split_ifs at hended with hterminal
      exact .inl ⟨e, List.mem_append_right _ (List.mem_singleton.2 rfl), hterminal⟩
  · obtain rfl := Option.some.inj hn
    refine ⟨h.place, h.passed, fun batch hbatch => ?_, fun hended => by cases hended⟩
    rcases hbatch with hbatch | hbatch
    · cases hbatch
    · cases hbatch
  · cases hn

theorem JobStream.Ok.disconnect (h : s.Ok jobs) (hn : s.disconnect = some s') : s'.Ok jobs := by
  unfold JobStream.disconnect at hn
  split at hn
  · cases hn
  · obtain rfl := Option.some.inj hn
    refine ⟨h.place, h.passed, fun batch hbatch => ?_, fun hended => by cases hended⟩
    rcases hbatch with hbatch | hbatch
    · cases hbatch
    · cases hbatch

/-- A step of one stream. -/
theorem JobStreamWorld.Inv.withStream (h : w.Inv) {c : ℕ} {f : JobStream → Option JobStream}
    (hf : ∀ s s', w.streams c = some s → s.Ok w.jobs → f s = some s' → s'.Ok w.jobs)
    (hn : w.withStream c f = some w') : w'.Inv := by
  obtain ⟨s, hs, hn⟩ := Option.bind_eq_some_iff.1 hn
  obtain ⟨s', hs', rfl⟩ := Option.map_eq_some_iff.1 hn
  refine ⟨h.ends, fun c' t ht => ?_⟩
  by_cases hc : c' = c
  · subst hc
    obtain rfl : s' = t := Option.some.inj ((Function.update_self c' _ _).symm.trans ht)
    exact hf s s' hs (h.streams c' s hs) hs'
  · exact h.streams c' t ((Function.update_of_ne hc _ _).symm.trans ht)

theorem JobStreamWorld.Inv.step (h : w.Inv) {a : JobStreamAct} (hC : w.Undisturbed a) (hn : w.next S a = some w') :
    w'.Inv := by
  cases a with
  | worker a =>
    obtain ⟨jobs, hjobs, rfl⟩ := Option.map_eq_some_iff.1 hn
    have hgrows := grows_step hjobs
    exact ⟨hgrows.ends h.ends, fun c s hs => (h.streams c s hs).grows hgrows.events⟩
  | connect c start =>
    simp only [JobStreamWorld.next] at hn
    split at hn
    · obtain rfl := Option.some.inj hn
      refine ⟨h.ends, fun c' t ht => ?_⟩
      by_cases hc : c' = c
      · subst hc
        obtain rfl := Option.some.inj ((Function.update_self c' _ _).symm.trans ht)
        exact ok_connect w.jobs start
      · exact h.streams c' t ((Function.update_of_ne hc _ _).symm.trans ht)
    · cases hn
  | readEvents c => exact h.withStream (fun s s' _ hok hs => hok.readEvents hs) hn
  | readJob c => exact h.withStream (fun s s' hc hok hs => hok.readJob h.ends (hC s hc) hs) hn
  | send c => exact h.withStream (fun s s' _ hok hs => hok.send hs) hn
  | disconnect c => exact h.withStream (fun s s' _ hok hs => hok.disconnect hs) hn

theorem JobStreamWorld.inv_initial : JobStreamWorld.initial.Inv where
  ends h := by cases h
  streams _ _ h := by cases h

end

/-- As long as no poll finds a job that has ended after it has missed the terminal event, a stream that was started
before the first terminal event, and that the client has not left, ends only after it has sent a terminal event. -/
theorem stream_ends_with_event (S : SseSettings) {acts : List JobStreamAct} {w : JobStreamWorld}
    (h : Steps (restrict JobStreamWorld.Undisturbed (JobStreamWorld.next S)) .initial acts w) {c : ℕ} {s : JobStream}
    (hs : w.streams c = some s) (hended : s.phase = .ended)
    (hstart : ∀ e ∈ w.jobs.numbered, terminalKey e.2 = true → s.start < e.1) :
    ∃ e ∈ s.sent, terminalKey e.2 = true := by
  have hinv : w.Inv := h.invariant (fun _ _ _ hinv hn => hinv.step (restrict_eq_some.1 hn).1 (restrict_eq_some.1 hn).2)
    JobStreamWorld.inv_initial
  rcases (hinv.streams c s hs).ended hended with hsent | ⟨e, he, hterminal, hle⟩
  · exact hsent
  · exact absurd (hstart e he hterminal) (not_lt.2 hle)

def sseDefault : SseSettings := ⟨50, by decide, by decide⟩

/-- A stream sends the events of a job until its worker has processed the document. -/
def followActs : List JobStreamAct :=
  [.connect 0 0, .readEvents 0, .readJob 0, .send 0, .send 0, .send 0, .worker (.deliver 0 0), .worker (.start 0),
    .readEvents 0, .readJob 0, .send 0, .send 0, .worker (.process 0)]

theorem stream_ends_with_event_followed : ∃ w s, Steps (restrict JobStreamWorld.Undisturbed
      (JobStreamWorld.next sseDefault)) .initial
      (followActs ++ [.worker (.finish 0), .readEvents 0, .readJob 0, .send 0, .send 0]) w ∧
    w.streams 0 = some s ∧ s.phase = .ended ∧ ∃ e ∈ s.sent, terminalKey e.2 = true := by
  have hexec : (exec (restrict JobStreamWorld.Undisturbed (JobStreamWorld.next sseDefault)) .initial
      (followActs ++ [.worker (.finish 0), .readEvents 0, .readJob 0, .send 0, .send 0])).any
      (fun w => (w.streams 0).any fun s => s.phase = .ended ∧
        ∀ e ∈ w.jobs.numbered, terminalKey e.2 = true → s.start < e.1) = true := by
    decide +kernel
  obtain ⟨w, hw, hexec⟩ := (Option.any_eq_true _ _).1 hexec
  obtain ⟨s, hs, hexec⟩ := (Option.any_eq_true _ _).1 hexec
  obtain ⟨hended, hstart⟩ := of_decide_eq_true hexec
  exact ⟨w, s, .of_exec hw, hs, hended, stream_ends_with_event sseDefault (.of_exec hw) hs hended hstart⟩

/-- The worker commits the end of the job after the events are read and before the row of the job is. -/
theorem stream_ends_without_event : ∃ w s, Steps (JobStreamWorld.next sseDefault) .initial
      (followActs ++ [.readEvents 0, .worker (.finish 0), .readJob 0]) w ∧ w.streams 0 = some s ∧ s.phase = .ended ∧
    (∀ e ∈ w.jobs.numbered, terminalKey e.2 = true → s.start < e.1) ∧ (5, "processing.completed") ∈ w.jobs.numbered ∧
    ∀ e ∈ s.sent, terminalKey e.2 = false := by
  have hexec : (exec (JobStreamWorld.next sseDefault) .initial
      (followActs ++ [.readEvents 0, .worker (.finish 0), .readJob 0])).any
      (fun w => (w.streams 0).any fun s => s.phase = .ended ∧
        (∀ e ∈ w.jobs.numbered, terminalKey e.2 = true → s.start < e.1) ∧
        (5, "processing.completed") ∈ w.jobs.numbered ∧ ∀ e ∈ s.sent, terminalKey e.2 = false) = true := by
    decide +kernel
  obtain ⟨w, hw, hexec⟩ := (Option.any_eq_true _ _).1 hexec
  obtain ⟨s, hs, hexec⟩ := (Option.any_eq_true _ _).1 hexec
  exact ⟨w, s, .of_exec hw, hs, of_decide_eq_true hexec⟩

end InvoiceOps
