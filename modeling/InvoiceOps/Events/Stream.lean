import InvoiceOps.Cases.Store
import InvoiceOps.Lib.EventLog
import InvoiceOps.Lib.Text

/-! The events of cases and jobs (`cases/events.py`, `jobs/events.py`), the streams that send them (`apps/api/main.py`)
and the clients that read these from the start, with a new request whenever a connection is lost
(`case-timeline.tsx`, `job-timeline.tsx`). -/

namespace InvoiceOps

open StateMachine

inductive JobEventType
  | uploadAccepted
  | documentValidated
  | extractionStarted
  | extractionCompleted
  | processingCompleted
  | processingFailed
  | heartbeat
deriving DecidableEq, Repr

/-- `TERMINAL_EVENT_TYPES` -/
def JobEventType.terminal (t : JobEventType) : Bool := decide (t = .processingCompleted ∨ t = .processingFailed)

structure CaseEvent where
  eventType : String
  stage : String
  status : String
  message : String
  documentId : Option Uuid
  documentRole : Option DocumentRole
  payload : List (String × Json)
  occurredAt : ℕ

structure JobEvent where
  eventType : JobEventType
  stage : String
  status : String
  message : String
  payload : List (String × Json)
  traceId : Option String
  occurredAt : ℕ

/-- The row that is locked: a case or a job. -/
inductive EventParent
  | case (id : Uuid)
  | job (id : Uuid)
deriving DecidableEq, Repr

inductive EventBody
  | case (event : CaseEvent)
  | job (event : JobEvent)

/-- What a transaction does: the two appends, the statements they go on with, and the rest. -/
inductive EventStatement
  | start (i : ℕ)
  | create (i : ℕ) (parent : EventParent)
  | lock (i : ℕ) (parent : EventParent)
  | appendCaseEvent (i : ℕ) (caseId : Uuid) (eventKey eventType stage status message : String)
      (documentId : Option Uuid) (documentRole : Option DocumentRole) (payload : Option (List (String × Json)))
      (now : ℕ)
  | appendJobEvent (i : ℕ) (jobId : Uuid) (eventKey : String) (eventType : JobEventType)
      (stage status message : String) (payload : Option (List (String × Json))) (traceId : Option String) (now : ℕ)
  | existing (i : ℕ)
  | lastSequence (i : ℕ)
  | flush (i : ℕ)
  | commit (i : ℕ)
  | rollback (i : ℕ)

def EventStatement.act : EventStatement → EventLog.Act EventParent String EventBody
  | .start i => .start i
  | .create i parent => .create i parent
  | .lock i parent => .lock i parent
  | .appendCaseEvent i caseId eventKey eventType stage status message documentId documentRole payload now =>
    .append i (.case caseId) eventKey
      (.case ⟨eventType, stage, status, message, documentId, documentRole, payload.getD [], now⟩)
  | .appendJobEvent i jobId eventKey eventType stage status message payload traceId now =>
    .append i (.job jobId) eventKey (.job ⟨eventType, stage, status, message, payload.getD [], traceId, now⟩)
  | .existing i => .check i
  | .lastSequence i => .readLast i
  | .flush i => .insert i
  | .commit i => .commit i
  | .rollback i => .rollback i

inductive StreamError
  | notFound
  | notAnInteger
  | negative
deriving DecidableEq, Repr

/-- `_last_event_sequence`, with the digits an HTTP header can hold. -/
def lastEventSequence (value : Option String) : Except StreamError ℕ :=
  match value with
  | none => .ok 0
  | some s =>
    if Text.strip s = "" then .ok 0
    else
      match Text.readInt Text.asciiDigit s with
      | none => .error .notAnInteger
      | some sequence => if sequence < 0 then .error .negative else .ok sequence.toNat

structure EventClient where
  parent : EventParent
  reader : EventLog.Reader EventParent String EventBody

structure EventWorld where
  log : EventLog.Log EventParent String EventBody
  jobStatus : Uuid → Option JobStatus
  clients : ℕ → Option EventClient

def EventWorld.initial : EventWorld := ⟨.initial, fun _ => none, fun _ => none⟩

inductive EventAct
  | statement (s : EventStatement)
  /-- The status of a job is committed. -/
  | status (job : Uuid) (status : JobStatus)
  | follow (c : ℕ) (parent : EventParent)
  | connect (c : ℕ)
  | poll (c : ℕ)
  | send (c : ℕ)
  | receive (c : ℕ)
  | disconnect (c : ℕ)

section

variable (w : EventWorld)

/-- The committed events of a case or a job. -/
def EventWorld.eventsOf (parent : EventParent) : List (EventLog.Event EventParent String EventBody) :=
  EventLog.ofParent parent w.log.committed

/-- The stream of a job ends with its last event. -/
def EventBody.final : EventBody → Bool
  | .case _ => false
  | .job event => event.eventType.terminal

/-- It ends as well when the job has an end and there is no event to send. -/
def EventWorld.ended : EventParent → Bool
  | .case _ => false
  | .job id => decide (w.jobStatus id = some .succeeded ∨ w.jobStatus id = some .failed)

/-- The request for the stream, with the greatest number received as its `Last-Event-ID`. -/
def EventWorld.request (client : EventClient) : Except StreamError ℕ :=
  if client.parent ∈ w.log.parents then lastEventSequence (client.reader.last.map toString) else .error .notFound

def EventWorld.withReader (c : ℕ) (f : EventClient → Option (EventLog.Reader EventParent String EventBody)) :
    Option EventWorld :=
  (w.clients c).bind fun client => (f client).map fun reader =>
    { w with clients := Function.update w.clients c (some { client with reader := reader }) }

end

def EventWorld.next (batchSize : ℕ) (w : EventWorld) : EventAct → Option EventWorld
  | .statement s => (w.log.next s.act).map fun log => { w with log := log }
  | .status job status => some { w with jobStatus := Function.update w.jobStatus job (some status) }
  | .follow c parent =>
    if (w.clients c).isNone then some { w with clients := Function.update w.clients c (some ⟨parent, .initial⟩) }
    else none
  | .connect c => w.withReader c fun client => (w.request client).toOption.bind client.reader.connect
  | .poll c => w.withReader c fun client =>
    client.reader.poll (w.eventsOf client.parent) batchSize (w.ended client.parent)
  | .send c => w.withReader c fun client => client.reader.send EventBody.final
  | .receive c => w.withReader c fun client => client.reader.receive
  | .disconnect c => w.withReader c fun client => client.reader.disconnect

/-- The number a client sends is the one the stream starts after. -/
theorem lastEventSequence_toString (last : Option ℕ) : lastEventSequence (last.map toString) = .ok (last.getD 0) := by
  cases last with
  | none => rfl
  | some n =>
    have hread := Text.readInt_toString n
    have hstrip : Text.strip (toString n) ≠ "" := by
      intro h
      have hnil : Text.stripBy Text.isSpace (toString n).toList = [] := by
        simpa [Text.strip] using congrArg String.toList h
      rw [Text.readInt, hnil] at hread
      cases hread
    simp only [Option.map_some, lastEventSequence, if_neg hstrip, hread, Option.getD_some]
    rw [if_neg (by omega), Int.toNat_natCast]

structure EventWorld.Inv (w : EventWorld) : Prop where
  log : w.log.Inv
  clients : ∀ c client, w.clients c = some client → client.reader.Follows (w.eventsOf client.parent)

section

variable {w w' : EventWorld} {batchSize : ℕ}

/-- A client that follows its events is put in the place of another one. -/
theorem EventWorld.Inv.update (h : w.Inv) {c : ℕ} {client : EventClient}
    (hclient : client.reader.Follows (w.eventsOf client.parent)) :
    EventWorld.Inv { w with clients := Function.update w.clients c (some client) } := by
  refine ⟨h.log, fun c' client' hclient' => ?_⟩
  by_cases hc : c' = c
  · obtain rfl : client = client' := Option.some.inj ((Function.update_self c _ _).symm.trans (hc ▸ hclient'))
    exact hclient
  · exact h.clients c' client' ((Function.update_of_ne hc _ _).symm.trans hclient')

theorem EventWorld.Inv.withReader (h : w.Inv) {c : ℕ}
    {f : EventClient → Option (EventLog.Reader EventParent String EventBody)}
    (hf : ∀ client reader, client.reader.Follows (w.eventsOf client.parent) → f client = some reader →
      reader.Follows (w.eventsOf client.parent)) (hn : w.withReader c f = some w') : w'.Inv := by
  obtain ⟨client, hclient, hn⟩ := Option.bind_eq_some_iff.1 hn
  obtain ⟨reader, hreader, rfl⟩ := Option.map_eq_some_iff.1 hn
  exact h.update (hf client reader (h.clients _ client hclient) hreader)

theorem EventWorld.Inv.step (h : w.Inv) {a : EventAct} (hn : w.next batchSize a = some w') : w'.Inv := by
  have hdense : ∀ parent, EventLog.Dense (w.eventsOf parent) := h.log.committed
  cases a with
  | statement s =>
    obtain ⟨log, hlog, rfl⟩ := Option.map_eq_some_iff.1 hn
    have hgrows := h.log.step hlog
    refine ⟨hgrows.inv, fun c client hclient => (h.clients c client hclient).mono ?_⟩
    exact hgrows.committed.filter _
  | status job status => exact Option.some.inj hn ▸ ⟨h.log, h.clients⟩
  | follow c parent =>
    simp only [EventWorld.next] at hn
    split at hn
    · exact Option.some.inj hn ▸ h.update EventLog.Reader.follows_initial
    · cases hn
  | connect c =>
    refine h.withReader (fun client reader hfollows hreader => ?_) hn
    obtain ⟨sequence, hsequence, hreader⟩ := Option.bind_eq_some_iff.1 hreader
    have hrequest := eq_ok_of_toOption hsequence
    unfold EventWorld.request at hrequest
    split at hrequest
    · rw [lastEventSequence_toString] at hrequest
      cases hrequest
      exact hfollows.connect hreader
    · cases hrequest
  | poll c => exact h.withReader (fun client _ hfollows => hfollows.poll (hdense client.parent)) hn
  | send c => exact h.withReader (fun client _ hfollows => hfollows.send (hdense client.parent)) hn
  | receive c => exact h.withReader (fun client _ hfollows => hfollows.receive (hdense client.parent)) hn
  | disconnect c => exact h.withReader (fun _ _ hfollows => hfollows.disconnect) hn

theorem EventWorld.inv_initial : EventWorld.initial.Inv := ⟨EventLog.Log.inv_initial, fun _ _ h => by cases h⟩

end

/-- After every interleaving of transactions and clients, the committed events of each case and each job are numbered
from one on without a gap and have distinct keys; and what a client has received, over all its connections, is the
first of them, each once and in order. -/
theorem events_in_sequence {batchSize : ℕ} {acts : List EventAct} {w : EventWorld}
    (h : Steps (EventWorld.next batchSize) .initial acts w) :
    (∀ parent, (w.eventsOf parent).map (·.sequence) = List.range' 1 (w.eventsOf parent).length ∧
      ((w.eventsOf parent).map (·.key)).Nodup) ∧
    ∀ c client, w.clients c = some client → ∃ k, client.reader.received = (w.eventsOf client.parent).take k ∧
      client.reader.received.map (·.sequence) = List.range' 1 k := by
  have hinv : w.Inv := h.invariant (fun _ _ _ hs hn => hs.step hn) EventWorld.inv_initial
  refine ⟨fun parent => ⟨(hinv.log.committed parent).sequences, (hinv.log.committed parent).keys⟩,
    fun c client hclient => ?_⟩
  have hreceived := (hinv.clients c client hclient).received
  refine ⟨client.reader.received.length, List.prefix_iff_eq_take.1 hreceived, ?_⟩
  exact (hinv.log.committed client.parent).sequences_first hreceived

/-- An append of transaction `i`, up to its flush. -/
def jobEventActs (i : ℕ) (eventKey : String) (eventType : JobEventType) : List EventAct :=
  [.appendJobEvent i (Uuid.ofNat 1) eventKey eventType "extraction" "processing" "Extraction" none none 0,
    .existing i, .lastSequence i, .flush i].map .statement

/-- A job is created. A client loses its connection before the second event arrives, which one transaction has rolled
back and another one has committed, while a third one waits and finds the key taken. -/
def lostConnectionActs : List EventAct :=
  List.flatten [[.statement (.start 0), .statement (.create 0 (.job (Uuid.ofNat 1)))],
    jobEventActs 0 "upload.accepted" .uploadAccepted,
    [.statement (.commit 0), .follow 0 (.job (Uuid.ofNat 1)), .connect 0, .poll 0, .send 0, .receive 0,
      .statement (.start 1)],
    jobEventActs 1 "extraction.started" .extractionStarted,
    [.poll 0, .statement (.rollback 1), .statement (.start 2), .statement (.start 3)],
    jobEventActs 2 "extraction.started" .extractionStarted,
    [.statement (.commit 2), .poll 0, .send 0, .disconnect 0],
    (jobEventActs 3 "extraction.started" .extractionStarted).take 2,
    jobEventActs 3 "extraction.completed" .extractionCompleted,
    [.connect 0, .poll 0, .send 0, .receive 0, .statement (.commit 3)]]

theorem events_in_sequence_lostConnection : ∃ w client, Steps (EventWorld.next 50) .initial lostConnectionActs w ∧
    (w.eventsOf (.job (Uuid.ofNat 1))).map (·.key) = ["upload.accepted", "extraction.started", "extraction.completed"] ∧
    (w.eventsOf (.job (Uuid.ofNat 1))).map (·.sequence) = [1, 2, 3] ∧ w.clients 0 = some client ∧
    client.reader.received.map (·.key) = ["upload.accepted", "extraction.started"] ∧
    ∃ k, client.reader.received.map (·.sequence) = List.range' 1 k := by
  have hexec : (exec (EventWorld.next 50) .initial lostConnectionActs).any (fun w =>
      (w.eventsOf (.job (Uuid.ofNat 1))).map (·.key) = ["upload.accepted", "extraction.started", "extraction.completed"] ∧
        (w.clients 0).any fun client =>
          client.reader.received.map (·.key) = ["upload.accepted", "extraction.started"]) = true := by
    decide +kernel
  obtain ⟨w, hw, hexec⟩ := (Option.any_eq_true _ _).1 hexec
  obtain ⟨hkeys, hexec⟩ := of_decide_eq_true hexec
  obtain ⟨client, hclient, hreceived⟩ := (Option.any_eq_true _ _).1 hexec
  obtain ⟨hevents, hclients⟩ := events_in_sequence (.of_exec hw)
  have hlength := congrArg List.length hkeys
  rw [List.length_map] at hlength
  have hsequences := (hevents (.job (Uuid.ofNat 1))).1
  rw [hlength] at hsequences
  obtain ⟨k, -, hk⟩ := hclients 0 client hclient
  exact ⟨w, client, .of_exec hw, hkeys, hsequences, hclient, of_decide_eq_true hreceived, k, hk⟩

end InvoiceOps
