import InvoiceOps.Events.JobStream
import Mathlib.Data.List.Sort
import Mathlib.Logic.Relation

/-! The timeline of a job in the browser (`web/src/components/job-timeline.tsx`, with `mergeJobEvent` of
`web/src/lib/job-events.ts`). It follows one stream after the other: when one breaks or ends it asks for the status of the
job, waits, and connects again behind the last event it has seen. Whatever breaks, and whatever the workers commit
meanwhile, it shows the events of the job from the first one on, each once and none left out. -/

namespace InvoiceOps

open StateMachine Relation

section

variable {E ι : Type} [DecidableEq ι] (id : E → ι) (sequence : E → ℕ)

/-- `mergeJobEvent` -/
def mergeJobEvent (events : List E) (incoming : E) : List E :=
  if events.any (fun event => id event = id incoming ∨ sequence event = sequence incoming) then events
  else (events ++ [incoming]).insertionSort fun left right => sequence left ≤ sequence right

/-- An event that comes after all the others is put behind them. -/
theorem mergeJobEvent_last {events : List E} {incoming : E}
    (h : (events ++ [incoming]).Pairwise fun left right => sequence left < sequence right)
    (hid : ∀ event ∈ events, id event ≠ id incoming) : mergeJobEvent id sequence events incoming = events ++ [incoming] := by
  have hbefore : ∀ event ∈ events, sequence event < sequence incoming := fun event hevent =>
    (List.pairwise_append.1 h).2.2 event hevent incoming (List.mem_singleton_self _)
  have hnew : events.any (fun event => id event = id incoming ∨ sequence event = sequence incoming) = false := by
    rw [List.any_eq_false]
    intro event hevent hsame
    obtain hsame | hsame := of_decide_eq_true hsame
    · exact hid event hevent hsame
    · exact (hbefore event hevent).ne hsame
  rw [mergeJobEvent, hnew, if_neg Bool.false_ne_true]
  exact (h.imp Nat.le_of_lt).insertionSort_eq

end

inductive TimelineConnection
  | connecting
  | live
  | reconnecting
  | fallback
  | complete
deriving DecidableEq

/-- Where the loop of the component is. -/
inductive TimelinePhase
  /-- Before the next connection. -/
  | idle
  /-- Reading a stream, of which this many events have arrived; the last one may be a terminal one. -/
  | consuming (c received : ℕ) (terminal : Bool)
  /-- Asking for the status of the job. -/
  | checking
  | sleeping
  | stopped
deriving DecidableEq

structure JobTimeline where
  events : List (ℕ × String)
  last : Option ℕ
  connection : TimelineConnection
  attempt : ℕ
  phase : TimelinePhase

structure TimelineWorld where
  server : JobStreamWorld
  timeline : JobTimeline

def TimelineWorld.initial : TimelineWorld := ⟨.initial, ⟨[], none, .connecting, 0, .idle⟩⟩

inductive TimelineAct
  /-- A worker, a stream, or another client. -/
  | server (a : JobStreamAct)
  | connect (c : ℕ)
  | unreachable
  | receive
  /-- The stream has ended and all of it has arrived. -/
  | close
  | broken
  /-- The status of the job is read, or the request fails. -/
  | check (answered : Bool)
  | wake
  | abort

section

variable (S : SseSettings) {ι : Type} [DecidableEq ι] (ids : ℕ → ι)

def JobTimeline.connecting (t : JobTimeline) : JobTimeline :=
  { t with connection := if t.attempt = 0 then .connecting else .reconnecting }

/-- The callback of `consumeJobEvents`; the events are rows with distinct ids. -/
def JobTimeline.onEvent (t : JobTimeline) (event : ℕ × String) : JobTimeline :=
  { t with
    events := mergeJobEvent (fun e => ids e.1) Prod.fst t.events event
    last := some (max (t.last.getD 0) event.1)
    connection := if terminalKey event.2 then .complete else .live }

/-- The answer of `/v1/jobs/{job_id}`: a job that has ended ends the loop. -/
def JobTimeline.checked (t : JobTimeline) (ended : Bool) : JobTimeline :=
  if ended then { t with connection := .fallback, phase := .stopped }
  else { t with attempt := t.attempt + 1, phase := .sleeping }

def TimelineWorld.next (w : TimelineWorld) : TimelineAct → Option TimelineWorld
  | .server a => (w.server.next S a).map fun server => { w with server := server }
  | .connect c =>
    match w.timeline.phase with
    | .idle => (w.server.next S (.connect c (w.timeline.last.getD 0))).map fun server =>
      ⟨server, { w.timeline.connecting with phase := .consuming c 0 false }⟩
    | _ => none
  | .unreachable =>
    match w.timeline.phase with
    | .idle => some { w with timeline := { w.timeline.connecting with phase := .checking } }
    | _ => none
  | .receive =>
    match w.timeline.phase with
    | .consuming c received _ =>
      ((w.server.streams c).bind fun s => s.sent[received]?).map fun event =>
        { w with timeline := { w.timeline.onEvent ids event with phase := .consuming c (received + 1) (terminalKey event.2) } }
    | _ => none
  | .close =>
    match w.timeline.phase with
    | .consuming c received terminal =>
      (w.server.streams c).bind fun s =>
        if s.phase = .ended ∧ received = s.sent.length then
          some { w with timeline := { w.timeline with phase := if terminal then .stopped else .checking } }
        else none
    | _ => none
  | .broken =>
    match w.timeline.phase with
    | .consuming .. => some { w with timeline := { w.timeline with phase := .checking } }
    | _ => none
  | .check answered =>
    match w.timeline.phase with
    | .checking => some { w with timeline := w.timeline.checked (answered && w.server.jobs.ended) }
    | _ => none
  | .wake =>
    match w.timeline.phase with
    | .sleeping => some { w with timeline := { w.timeline with phase := .idle } }
    | _ => none
  | .abort => some { w with timeline := { w.timeline with phase := .stopped } }

end

section

variable {S : SseSettings} {jobs jobs' : JobWorld} {s s' : JobStream}

theorem numbered_length (jobs : JobWorld) : jobs.numbered.length = jobs.events.length := by
  rw [JobWorld.numbered, List.length_map, List.length_zipIdx]

theorem numbered_number {i : ℕ} {e : ℕ × String} (h : jobs.numbered[i]? = some e) : e.1 = i + 1 := by
  simp only [JobWorld.numbered, List.getElem?_map, List.getElem?_zipIdx, Option.map_eq_some_iff] at h
  obtain ⟨x, ⟨key, -, rfl⟩, rfl⟩ := h
  exact congrArg (· + 1) (Nat.zero_add i)

/-- The events after a number are those behind so many others. -/
theorem numbered_after (jobs : JobWorld) (n : ℕ) : (jobs.numbered.filter fun e => n < e.1) = jobs.numbered.drop n := by
  have hbefore : ∀ e ∈ jobs.numbered.take n, decide (n < e.1) = false := by
    intro e he
    obtain ⟨i, hi⟩ := List.mem_iff_getElem?.1 he
    obtain ⟨hlt, hget⟩ := List.getElem?_eq_some_iff.1 hi
    have hle := numbered_number ((List.getElem?_take_of_lt (by simp at hlt; omega)).symm.trans hi)
    simp only [List.length_take] at hlt
    exact decide_eq_false (by omega)
  have hafter : ∀ e ∈ jobs.numbered.drop n, decide (n < e.1) = true := by
    intro e he
    obtain ⟨i, hi⟩ := List.mem_iff_getElem?.1 he
    rw [List.getElem?_drop] at hi
    have hnumber := numbered_number hi
    exact decide_eq_true (by omega)
  conv_lhs => rw [← List.take_append_drop n jobs.numbered]
  rw [List.filter_append, List.filter_eq_nil_iff.2 fun e he => by simp [hbefore e he],
    List.filter_eq_self.2 hafter, List.nil_append]

/-- A stream has sent the events between its start and its place, all of them and in order. -/
structure JobStream.Exact (jobs : JobWorld) (s : JobStream) : Prop where
  order : s.start ≤ s.sequence
  place : s.sequence = s.start ∨ s.sequence ≤ jobs.events.length
  batch : ∀ batch, s.phase = .polled batch ∨ s.phase = .sending batch → batch <+: jobs.numbered.drop s.sequence
  sent : s.sent = (jobs.numbered.drop s.start).take (s.sequence - s.start)

theorem JobStream.Exact.grows (h : s.Exact jobs) (hevents : jobs.events <+: jobs'.events) : s.Exact jobs' := by
  obtain ⟨added, hadded, -⟩ := numbered_of_grows hevents
  refine ⟨h.order, h.place.imp_right fun hle => hle.trans hevents.length_le, fun batch hbatch => ?_, ?_⟩
  · refine (h.batch batch hbatch).trans ?_
    rw [hadded]
    exact List.IsPrefix.drop (List.prefix_append ..) _
  · rw [h.sent, hadded]
    obtain hplace | hplace := h.place
    · rw [hplace, Nat.sub_self, List.take_zero, List.take_zero]
    · have hlength := numbered_length jobs
      rw [List.drop_append_of_le_length (by have := h.order; omega), List.take_append_of_le_length]
      rw [List.length_drop]
      omega

theorem exact_connect (jobs : JobWorld) (start : ℕ) : JobStream.Exact jobs ⟨start, start, [], .waiting⟩ where
  order := le_rfl
  place := .inl rfl
  batch batch h := by rcases h with h | h <;> cases h
  sent := by rw [Nat.sub_self, List.take_zero]

theorem JobStream.Exact.readEvents (h : s.Exact jobs) (hn : s.readEvents S jobs = some s') : s'.Exact jobs := by
  unfold JobStream.readEvents at hn
  split at hn
  · obtain rfl := Option.some.inj hn
    refine ⟨h.order, h.place, fun batch hbatch => ?_, h.sent⟩
    obtain hbatch | hbatch := hbatch
    · obtain rfl := JobStreamPhase.polled.inj hbatch
      rw [JobWorld.listJobEvents, numbered_after]
      exact List.take_prefix ..
    · cases hbatch
  · cases hn

theorem JobStream.Exact.readJob (h : s.Exact jobs) (hn : s.readJob jobs = some s') : s'.Exact jobs := by
  unfold JobStream.readJob at hn
  split at hn
  · obtain rfl := Option.some.inj hn
    refine ⟨h.order, h.place, fun batch hbatch => ?_, h.sent⟩
    dsimp only at hbatch
    split_ifs at hbatch <;> simp at hbatch
  · rename_i batch hphase
    obtain rfl := Option.some.inj hn
    refine ⟨h.order, h.place, fun batch' hbatch => ?_, h.sent⟩
    obtain hbatch | hbatch := hbatch
    · cases hbatch
    · obtain rfl := JobStreamPhase.sending.inj hbatch
      exact h.batch _ (.inl hphase)
  · cases hn

/-- The next event of a batch is the one behind the place of the stream. -/
theorem JobStream.Exact.send (h : s.Exact jobs) (hn : s.send = some s') : s'.Exact jobs := by
  unfold JobStream.send at hn
  split at hn
  · rename_i e rest hphase
    obtain rfl := Option.some.inj hn
    obtain ⟨after, hafter⟩ := h.batch _ (.inr hphase)
    have hget : jobs.numbered[s.sequence]? = some e := by
      have hhead := congrArg (·[0]?) hafter
      simpa using hhead.symm
    have hnumber := numbered_number hget
    have hlt := (List.getElem?_eq_some_iff.1 hget).1
    have horder := h.order
    rw [numbered_length] at hlt
    refine ⟨by simp only; omega, .inr (by simp only; omega), fun batch hbatch => ?_, ?_⟩
    · have hrest : rest <+: jobs.numbered.drop (s.sequence + 1) := by
        refine ⟨after, ?_⟩
        rw [← List.tail_drop, ← hafter]
        rfl
      simp only at hbatch ⊢
      split_ifs at hbatch
      · simp at hbatch
      · obtain hbatch | hbatch := hbatch
        · cases hbatch
        · obtain rfl := JobStreamPhase.sending.inj hbatch
          rw [hnumber]
          exact hrest
    · simp only
      rw [hnumber, Nat.sub_add_comm horder, List.take_add_one, List.getElem?_drop, Nat.add_sub_cancel' horder, hget,
        ← h.sent]
      rfl
  · obtain rfl := Option.some.inj hn
    refine ⟨h.order, h.place, fun batch hbatch => ?_, h.sent⟩
    rcases hbatch with hbatch | hbatch <;> cases hbatch
  · cases hn

theorem JobStream.Exact.disconnect (h : s.Exact jobs) (hn : s.disconnect = some s') : s'.Exact jobs := by
  unfold JobStream.disconnect at hn
  split at hn
  · cases hn
  · obtain rfl := Option.some.inj hn
    refine ⟨h.order, h.place, fun batch hbatch => ?_, h.sent⟩
    rcases hbatch with hbatch | hbatch <;> cases hbatch

end

/-- What a step of the server leaves: streams that are exact, the events that were there, and what was sent. -/
structure ServerKeeps (v v' : JobStreamWorld) : Prop where
  exact : ∀ c s, v'.streams c = some s → s.Exact v'.jobs
  events : v.jobs.events <+: v'.jobs.events
  sent : ∀ c s, v.streams c = some s → ∃ s', v'.streams c = some s' ∧ s'.start = s.start ∧ s.sent <+: s'.sent

section

variable {S : SseSettings} {v v' : JobStreamWorld}

theorem serverKeeps_withStream (h : ∀ c s, v.streams c = some s → s.Exact v.jobs) {c : ℕ} {f : JobStream → Option JobStream}
    (hf : ∀ s s', s.Exact v.jobs → f s = some s' → s'.Exact v.jobs ∧ s'.start = s.start ∧ s.sent <+: s'.sent)
    (hn : v.withStream c f = some v') : ServerKeeps v v' := by
  obtain ⟨s, hs, hn⟩ := Option.bind_eq_some_iff.1 hn
  obtain ⟨s', hs', rfl⟩ := Option.map_eq_some_iff.1 hn
  obtain ⟨hexact, hstart, hsent⟩ := hf s s' (h c s hs) hs'
  refine ⟨fun c' t ht => ?_, List.prefix_refl _, fun c' t ht => ?_⟩
  · by_cases hc : c' = c
    · subst hc
      obtain rfl : s' = t := Option.some.inj ((Function.update_self c' _ _).symm.trans ht)
      exact hexact
    · exact h c' t ((Function.update_of_ne hc _ _).symm.trans ht)
  · by_cases hc : c' = c
    · subst hc
      obtain rfl : s = t := Option.some.inj (hs.symm.trans ht)
      exact ⟨s', Function.update_self .., hstart, hsent⟩
    · exact ⟨t, (Function.update_of_ne hc ..).trans ht, rfl, List.prefix_refl _⟩

theorem readEvents_keeps {s s' : JobStream} {jobs : JobWorld} (hn : s.readEvents S jobs = some s') :
    s'.start = s.start ∧ s.sent <+: s'.sent := by
  unfold JobStream.readEvents at hn
  split at hn
  · obtain rfl := Option.some.inj hn
    exact ⟨rfl, List.prefix_refl _⟩
  · cases hn

theorem readJob_keeps {s s' : JobStream} {jobs : JobWorld} (hn : s.readJob jobs = some s') :
    s'.start = s.start ∧ s.sent <+: s'.sent := by
  unfold JobStream.readJob at hn
  split at hn
  · obtain rfl := Option.some.inj hn
    exact ⟨rfl, List.prefix_refl _⟩
  · obtain rfl := Option.some.inj hn
    exact ⟨rfl, List.prefix_refl _⟩
  · cases hn

theorem send_keeps {s s' : JobStream} (hn : s.send = some s') : s'.start = s.start ∧ s.sent <+: s'.sent := by
  unfold JobStream.send at hn
  split at hn
  · obtain rfl := Option.some.inj hn
    exact ⟨rfl, List.prefix_append ..⟩
  · obtain rfl := Option.some.inj hn
    exact ⟨rfl, List.prefix_refl _⟩
  · cases hn

theorem disconnect_keeps {s s' : JobStream} (hn : s.disconnect = some s') : s'.start = s.start ∧ s.sent <+: s'.sent := by
  unfold JobStream.disconnect at hn
  split at hn
  · cases hn
  · obtain rfl := Option.some.inj hn
    exact ⟨rfl, List.prefix_refl _⟩

theorem serverKeeps_step (h : ∀ c s, v.streams c = some s → s.Exact v.jobs) {a : JobStreamAct} (hn : v.next S a = some v') :
    ServerKeeps v v' := by
  cases a with
  | worker a =>
    obtain ⟨jobs, hjobs, rfl⟩ := Option.map_eq_some_iff.1 hn
    have hgrows := (grows_step hjobs).events
    exact ⟨fun c s hs => (h c s hs).grows hgrows, hgrows, fun c s hs => ⟨s, hs, rfl, List.prefix_refl _⟩⟩
  | connect c start =>
    simp only [JobStreamWorld.next] at hn
    split_ifs at hn with hfree
    obtain rfl := Option.some.inj hn
    refine ⟨fun c' t ht => ?_, List.prefix_refl _, fun c' t ht => ?_⟩
    · by_cases hc : c' = c
      · subst hc
        obtain rfl := Option.some.inj ((Function.update_self c' _ _).symm.trans ht)
        exact exact_connect v.jobs start
      · exact h c' t ((Function.update_of_ne hc _ _).symm.trans ht)
    · have hc : c' ≠ c := by
        rintro rfl
        rw [ht] at hfree
        cases hfree
      exact ⟨t, (Function.update_of_ne hc ..).trans ht, rfl, List.prefix_refl _⟩
  | readEvents c => exact serverKeeps_withStream h (fun s s' hok hs => ⟨hok.readEvents hs, readEvents_keeps hs⟩) hn
  | readJob c => exact serverKeeps_withStream h (fun s s' hok hs => ⟨hok.readJob hs, readJob_keeps hs⟩) hn
  | send c => exact serverKeeps_withStream h (fun s s' hok hs => ⟨hok.send hs, send_keeps hs⟩) hn
  | disconnect c => exact serverKeeps_withStream h (fun s s' hok hs => ⟨hok.disconnect hs, disconnect_keeps hs⟩) hn

end

/-- A log that grows, and a reader who is shown its events one after the other. -/
inductive Follows {E : Type} : List E × List E → List E × List E → Prop
  | grows {log log' shown : List E} : log <+: log' → Follows (log, shown) (log', shown)
  | shows {log shown : List E} {event : E} : shown ++ [event] <+: log → Follows (log, shown) (log, shown ++ [event])

theorem follows_isPrefix {E : Type} {p q : List E × List E} (h : ReflTransGen Follows p q) (hp : p.2 <+: p.1) :
    q.2 <+: q.1 ∧ p.1 <+: q.1 ∧ p.2 <+: q.2 := by
  induction h with
  | refl => exact ⟨hp, List.prefix_refl _, List.prefix_refl _⟩
  | tail _ hstep ih =>
    obtain ⟨hshown, hlog, hgrown⟩ := ih
    cases hstep with
    | grows hlog' => exact ⟨hshown.trans hlog', hlog.trans hlog', hgrown⟩
    | shows hnext => exact ⟨hnext, hlog, hgrown.trans (List.prefix_append ..)⟩

/-- The log of the job, and what the timeline shows of it. -/
def TimelineWorld.view (w : TimelineWorld) : List (ℕ × String) × List (ℕ × String) :=
  (w.server.jobs.numbered, w.timeline.events)

/-- The number of the last event shown. -/
def TimelineWorld.seen (w : TimelineWorld) : ℕ := w.timeline.last.getD 0

/-- The timeline shows the events up to the last one it has seen; a stream it reads was started there, and has sent as much
since as has arrived. -/
structure TimelineWorld.Ok (w : TimelineWorld) : Prop where
  exact : ∀ c s, w.server.streams c = some s → s.Exact w.server.jobs
  seen : w.seen ≤ w.server.jobs.events.length
  events : w.timeline.events = w.server.jobs.numbered.take w.seen
  reading : ∀ c received terminal, w.timeline.phase = .consuming c received terminal →
    ∃ s, w.server.streams c = some s ∧ w.seen = s.start + received
  complete : w.timeline.connection = .complete → ∃ e ∈ w.timeline.events, terminalKey e.2 = true

section

variable {S : SseSettings} {ι : Type} [DecidableEq ι] {ids : ℕ → ι} {w w' : TimelineWorld}

/-- Steps of the server leave the timeline as it is. -/
theorem TimelineWorld.Ok.serve (h : w.Ok) {server : JobStreamWorld} (hkeeps : ServerKeeps w.server server) :
    ({ w with server := server } : TimelineWorld).Ok := by
  obtain ⟨added, hadded, -⟩ := numbered_of_grows hkeeps.events
  have hlength : w.seen ≤ w.server.jobs.numbered.length := (numbered_length _).symm ▸ h.seen
  refine ⟨hkeeps.exact, h.seen.trans hkeeps.events.length_le, ?_, fun c received terminal hphase => ?_, h.complete⟩
  · change w.timeline.events = server.jobs.numbered.take w.seen
    rw [hadded, List.take_append_of_le_length hlength]
    exact h.events
  · obtain ⟨s, hs, hseen⟩ := h.reading c received terminal hphase
    obtain ⟨s', hs', hstart, -⟩ := hkeeps.sent c s hs
    exact ⟨s', hs', hstart ▸ hseen⟩

/-- The loop goes on without a stream. -/
theorem TimelineWorld.Ok.turn (h : w.Ok) {t : JobTimeline} (hevents : t.events = w.timeline.events)
    (hlast : t.last = w.timeline.last) (hphase : ∀ c received terminal, t.phase ≠ .consuming c received terminal)
    (hconnection : t.connection = .complete → w.timeline.connection = .complete) :
    ({ w with timeline := t } : TimelineWorld).Ok := by
  have hseen : ({ w with timeline := t } : TimelineWorld).seen = w.seen := congrArg (·.getD 0) hlast
  refine ⟨h.exact, hseen ▸ h.seen, ?_, fun c received terminal hc => absurd hc (hphase c received terminal), fun hc => ?_⟩
  · rw [hseen]
    exact hevents.trans h.events
  · obtain ⟨e, he, hterminal⟩ := h.complete (hconnection hc)
    exact ⟨e, hevents ▸ he, hterminal⟩

/-- An event that arrives is the next one of the log, and it is shown behind the others. -/
theorem TimelineWorld.Ok.onEvent (hids : Function.Injective ids) (h : w.Ok) {c received : ℕ} {terminal : Bool}
    {s : JobStream} {event : ℕ × String} (hphase : w.timeline.phase = .consuming c received terminal)
    (hs : w.server.streams c = some s) (hevent : s.sent[received]? = some event) :
    event.1 = w.seen + 1 ∧ w.timeline.events ++ [event] = w.server.jobs.numbered.take (w.seen + 1) ∧
      mergeJobEvent (fun e => ids e.1) Prod.fst w.timeline.events event = w.timeline.events ++ [event] := by
  obtain ⟨s', hs', hseen⟩ := h.reading c received terminal hphase
  obtain rfl : s = s' := Option.some.inj (hs.symm.trans hs')
  have hget : w.server.jobs.numbered[w.seen]? = some event := by
    rw [(h.exact c s hs).sent] at hevent
    obtain ⟨hlt, -⟩ := List.getElem?_eq_some_iff.1 hevent
    rw [List.length_take] at hlt
    rw [List.getElem?_take_of_lt (by omega), List.getElem?_drop, ← hseen] at hevent
    exact hevent
  have hnumber := numbered_number hget
  have htake : w.timeline.events ++ [event] = w.server.jobs.numbered.take (w.seen + 1) := by
    rw [h.events, List.take_add_one, hget]
    rfl
  have hincreasing : (w.timeline.events ++ [event]).Pairwise fun a b => a.1 < b.1 := by
    rw [htake]
    exact (numbered_increasing w.server.jobs).sublist (List.take_sublist ..)
  refine ⟨hnumber, htake, mergeJobEvent_last _ _ hincreasing fun e he hsame => ?_⟩
  have hlt := (List.pairwise_append.1 hincreasing).2.2 e he event (List.mem_singleton_self _)
  exact hlt.ne (hids hsame)

theorem TimelineWorld.Ok.receive (hids : Function.Injective ids) (h : w.Ok) {c received : ℕ} {terminal : Bool}
    {s : JobStream} {event : ℕ × String} (hphase : w.timeline.phase = .consuming c received terminal)
    (hs : w.server.streams c = some s) (hevent : s.sent[received]? = some event) {phase : TimelinePhase}
    (hnext : phase = .consuming c (received + 1) (terminalKey event.2)) :
    ({ w with timeline := { w.timeline.onEvent ids event with phase := phase } } : TimelineWorld).Ok := by
  obtain ⟨hnumber, htake, hmerge⟩ := h.onEvent hids hphase hs hevent
  obtain ⟨s', hs', hseen⟩ := h.reading c received terminal hphase
  have hlast : max (w.timeline.last.getD 0) event.1 = w.seen + 1 := by
    change max w.seen event.1 = w.seen + 1
    omega
  have hlength : w.seen + 1 ≤ w.server.jobs.events.length := by
    have hlengths := congrArg List.length htake
    rw [List.length_append, h.events, List.length_take, List.length_take, numbered_length, List.length_singleton] at hlengths
    omega
  have hevents : mergeJobEvent (fun e => ids e.1) Prod.fst w.timeline.events event =
      w.server.jobs.numbered.take (w.seen + 1) := hmerge.trans htake
  constructor
  · exact h.exact
  · change max (w.timeline.last.getD 0) event.1 ≤ _
    rw [hlast]
    exact hlength
  · change mergeJobEvent (fun e => ids e.1) Prod.fst w.timeline.events event =
      w.server.jobs.numbered.take (max (w.timeline.last.getD 0) event.1)
    rw [hlast, hevents]
  · intro c' received' terminal' hphase'
    obtain ⟨rfl, rfl, -⟩ := TimelinePhase.consuming.inj (hnext.symm.trans hphase')
    refine ⟨s', hs', ?_⟩
    change max (w.timeline.last.getD 0) event.1 = s'.start + (received + 1)
    omega
  · intro hcomplete
    refine ⟨event, ?_, ?_⟩
    · change event ∈ mergeJobEvent (fun e => ids e.1) Prod.fst w.timeline.events event
      rw [hmerge]
      exact List.mem_append_right _ (List.mem_singleton_self _)
    · by_contra hother
      rw [Bool.not_eq_true] at hother
      simp only [JobTimeline.onEvent, hother] at hcomplete
      cases hcomplete

/-- Every step of the browser and of the server is one of a reader of the log, or none. -/
theorem TimelineWorld.Ok.step (hids : Function.Injective ids) (h : w.Ok) {a : TimelineAct} (hn : w.next S ids a = some w') :
    w'.Ok ∧ ReflGen Follows w.view w'.view := by
  cases a with
  | server a =>
    obtain ⟨server, hserver, rfl⟩ := Option.map_eq_some_iff.1 hn
    have hkeeps := serverKeeps_step h.exact hserver
    obtain ⟨added, hadded, -⟩ := numbered_of_grows hkeeps.events
    exact ⟨h.serve hkeeps, .single (.grows ⟨added, hadded.symm⟩)⟩
  | connect c =>
    simp only [TimelineWorld.next] at hn
    split at hn
    · obtain ⟨server, hserver, rfl⟩ := Option.map_eq_some_iff.1 hn
      have hkeeps := serverKeeps_step h.exact hserver
      obtain ⟨added, hadded, -⟩ := numbered_of_grows hkeeps.events
      have hserved := h.serve hkeeps
      refine ⟨⟨hserved.exact, hserved.seen, hserved.events, fun c' received terminal hphase => ?_, fun hcomplete => ?_⟩,
        .single (.grows ⟨added, hadded.symm⟩)⟩
      · obtain ⟨rfl, rfl, -⟩ := TimelinePhase.consuming.inj hphase
        simp only [JobStreamWorld.next] at hserver
        split_ifs at hserver
        obtain rfl := Option.some.inj hserver
        exact ⟨_, Function.update_self .., rfl⟩
      · simp only [JobTimeline.connecting] at hcomplete
        split_ifs at hcomplete
    · cases hn
  | unreachable =>
    simp only [TimelineWorld.next] at hn
    split at hn
    · obtain rfl := Option.some.inj hn
      refine ⟨h.turn rfl rfl (fun _ _ _ hc => by cases hc) fun hcomplete => ?_, .refl⟩
      simp only [JobTimeline.connecting] at hcomplete
      split_ifs at hcomplete
    · cases hn
  | receive =>
    simp only [TimelineWorld.next] at hn
    split at hn
    · rename_i c received terminal hphase
      obtain ⟨event, hevent, rfl⟩ := Option.map_eq_some_iff.1 hn
      obtain ⟨s, hs, hevent⟩ := Option.bind_eq_some_iff.1 hevent
      obtain ⟨-, htake, hmerge⟩ := h.onEvent hids hphase hs hevent
      refine ⟨h.receive hids hphase hs hevent rfl, ?_⟩
      have hview : TimelineWorld.view { w with timeline := { w.timeline.onEvent ids event with
          phase := .consuming c (received + 1) (terminalKey event.2) } } =
          (w.server.jobs.numbered, w.timeline.events ++ [event]) := congrArg (Prod.mk _) hmerge
      rw [hview]
      refine .single (.shows ?_)
      rw [htake]
      exact List.take_prefix ..
    · cases hn
  | close =>
    simp only [TimelineWorld.next] at hn
    split at hn
    · rename_i c received terminal hphase
      obtain ⟨s, -, hn⟩ := Option.bind_eq_some_iff.1 hn
      split_ifs at hn
      · obtain rfl := Option.some.inj hn
        exact ⟨h.turn rfl rfl (fun _ _ _ hc => by cases hc) id, .refl⟩
      · obtain rfl := Option.some.inj hn
        exact ⟨h.turn rfl rfl (fun _ _ _ hc => by cases hc) id, .refl⟩
    · cases hn
  | broken =>
    simp only [TimelineWorld.next] at hn
    split at hn
    · obtain rfl := Option.some.inj hn
      exact ⟨h.turn rfl rfl (fun _ _ _ hc => by cases hc) id, .refl⟩
    · cases hn
  | check answered =>
    simp only [TimelineWorld.next] at hn
    split at hn
    · obtain rfl := Option.some.inj hn
      unfold JobTimeline.checked
      split_ifs
      · exact ⟨h.turn rfl rfl (fun _ _ _ hc => by cases hc) (fun hcomplete => by cases hcomplete), .refl⟩
      · exact ⟨h.turn rfl rfl (fun _ _ _ hc => by cases hc) id, .refl⟩
    · cases hn
  | wake =>
    simp only [TimelineWorld.next] at hn
    split at hn
    · obtain rfl := Option.some.inj hn
      exact ⟨h.turn rfl rfl (fun _ _ _ hc => by cases hc) id, .refl⟩
    · cases hn
  | abort =>
    obtain rfl := Option.some.inj hn
    exact ⟨h.turn rfl rfl (fun _ _ _ hc => by cases hc) id, .refl⟩

theorem TimelineWorld.ok_initial : TimelineWorld.initial.Ok where
  exact _ _ hs := nomatch hs
  seen := Nat.zero_le _
  events := rfl
  reading _ _ _ hphase := nomatch hphase
  complete hcomplete := nomatch hcomplete

theorem TimelineWorld.Ok.run (hids : Function.Injective ids) (h : w.Ok) {acts : List TimelineAct}
    (hw : Steps (TimelineWorld.next S ids) w acts w') : w'.Ok ∧ ReflTransGen Follows w.view w'.view := by
  refine hw.invariant (I := fun u => u.Ok ∧ ReflTransGen Follows w.view u.view) (fun u u' a hu hn => ?_) ⟨h, .refl⟩
  obtain ⟨hok, hstep⟩ := hu.1.step hids hn
  exact ⟨hok, hu.2.trans hstep.to_reflTransGen⟩

/-- Over every run of the browser, the streams and the workers, the timeline reads the log of the job: it shows the events
up to the last one it has seen, in order, each once and none left out, what it has shown stays, and it calls the job
complete only when it shows the end of the job. -/
theorem timeline_exact (hids : Function.Injective ids) {acts acts' : List TimelineAct}
    (h : Steps (TimelineWorld.next S ids) .initial acts w) (h' : Steps (TimelineWorld.next S ids) w acts' w') :
    w'.timeline.events = w'.server.jobs.numbered.take w'.seen ∧ w'.seen ≤ w'.server.jobs.events.length ∧
      w.timeline.events <+: w'.timeline.events ∧ ReflTransGen Follows w.view w'.view ∧
      (w'.timeline.connection = .complete → ∃ e ∈ w'.timeline.events, terminalKey e.2 = true) := by
  obtain ⟨hok, -⟩ := TimelineWorld.ok_initial.run hids h
  obtain ⟨hok', hreads⟩ := hok.run hids h'
  have hshown : w.timeline.events <+: w.server.jobs.numbered := by
    rw [hok.events]
    exact List.take_prefix ..
  exact ⟨hok'.events, hok'.seen, (follows_isPrefix hreads hshown).2.2, hreads, hok'.complete⟩

/-- A connection breaks while an event is on its way; the next one starts behind what was seen. -/
def brokenActs : List TimelineAct :=
  [.connect 0, .server (.readEvents 0), .server (.readJob 0), .server (.send 0), .server (.send 0), .receive, .broken]

def againActs : List TimelineAct :=
  [.check true, .wake, .connect 1, .server (.readEvents 1), .server (.readJob 1), .server (.send 1), .receive]

theorem timeline_exact_broken : ∃ w w', Steps (TimelineWorld.next sseDefault id) .initial brokenActs w ∧
    Steps (TimelineWorld.next sseDefault id) w againActs w' ∧ w.timeline.events = [(1, "upload.accepted")] ∧
    w'.timeline.events = [(1, "upload.accepted"), (2, "document.validated")] ∧ w.timeline.events <+: w'.timeline.events := by
  have hexec : (exec (TimelineWorld.next sseDefault id) .initial brokenActs).any (fun w =>
      decide (w.timeline.events = [(1, "upload.accepted")]) &&
        (exec (TimelineWorld.next sseDefault id) w againActs).any fun w' =>
          w'.timeline.events = [(1, "upload.accepted"), (2, "document.validated")]) = true := by
    decide +kernel
  obtain ⟨w, hw, hexec⟩ := (Option.any_eq_true _ _).1 hexec
  obtain ⟨hfirst, hexec⟩ := (Bool.and_eq_true _ _).mp hexec
  obtain ⟨w', hw', hsecond⟩ := (Option.any_eq_true _ _).1 hexec
  exact ⟨w, w', .of_exec hw, .of_exec hw', of_decide_eq_true hfirst, of_decide_eq_true hsecond,
    (timeline_exact Function.injective_id (.of_exec hw) (.of_exec hw')).2.2.1⟩

end

end InvoiceOps
