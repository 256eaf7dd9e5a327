import InvoiceOps.Lib.Run
import InvoiceOps.Review.Audit
import InvoiceOps.Risk.Service

/-! The review service (`review/service.py`) over its tables: opening a case for a match run, and the
four commands, each with its conditional update and its event. Whatever sequence of operations has been
performed, the audit of every case succeeds. -/

namespace InvoiceOps

open Calendar HashChain

inductive TriggerType
  | matchReason
  | riskSignal
deriving DecidableEq, Repr

def TriggerType.value : TriggerType → String
  | .matchReason => "MATCH_REASON"
  | .riskSignal => "RISK_SIGNAL"

/-- A logical trigger: its type, its code and the row it comes from. -/
structure Trigger where
  type : TriggerType
  code : String
  sourceId : Uuid
deriving DecidableEq, Repr

structure ReviewCaseTrigger where
  reviewCaseId : Uuid
  trigger : Trigger
  createdAt : DateTime
deriving DecidableEq, Repr

def Trigger.key (t : Trigger) : Lex (String × Lex (String × String)) :=
  toLex (t.type.value, toLex (t.code, t.sourceId.str))

def triggerSnapshot (run : MatchRun) (risk : Option RiskAssessment) : List Trigger :=
  let reasons : List Trigger := run.result.reasonCodes.map fun c => ⟨.matchReason, c.value, run.id⟩
  let signals : List Trigger :=
    risk.elim [] fun a => a.result.signals.map fun s => ⟨.riskSignal, s.code.value, a.id⟩
  (reasons ++ signals).dedup.insertionSort fun s t => s.key ≤ t.key

def triggerJson (t : Trigger) : Json :=
  .obj [("type", .str t.type.value), ("code", .str t.code), ("source_id", .str t.sourceId.str)]

def requiresReview (run : MatchRun) (risk : Option RiskAssessment) : Bool :=
  decide (run.decision = .needsReview) || risk.any fun a => a.result.disposition = .needsReview

def openingPayload (run : MatchRun) (risk : Option RiskAssessment) : List (String × Json) :=
  [("match_run_id", .str run.id.str),
    ("reason_codes", .arr (run.result.reasonCodes.map fun c => .str c.value)),
    ("review_triggers", .arr ((triggerSnapshot run risk).map triggerJson))]

structure ReviewStore where
  cases : List ReviewCase
  events : List ReviewEvent
  triggers : List ReviewCaseTrigger

def ReviewStore.empty : ReviewStore := ⟨[], [], []⟩

def openedCase (run : MatchRun) (caseId : Uuid) (now : DateTime) : ReviewCase where
  id := caseId
  matchRunId := run.id
  status := .opened
  assignedReviewerId := none
  version := 1
  openedAt := now
  claimedAt := none
  resolvedAt := none
  resolution := none
  resolutionReason := none

def openedEvent (B : Builtins) (run : MatchRun) (risk : Option RiskAssessment) (caseId : Uuid)
    (now : DateTime) : ReviewEvent :=
  newEvent B
    { caseId := caseId
      sequenceNumber := 1
      eventType := .caseOpened
      actorId := systemActorId
      occurredAt := now
      payload := openingPayload run risk
      previousHash := none }

/-- `_ensure_review_triggers`: the triggers that are not there yet. -/
def newTriggers (triggers : List ReviewCaseTrigger) (case : ReviewCase) (run : MatchRun)
    (risk : Option RiskAssessment) : List ReviewCaseTrigger :=
  let existing := (triggers.filter (·.reviewCaseId = case.id)).map (·.trigger)
  ((triggerSnapshot run risk).filter (· ∉ existing)).map fun t => ⟨case.id, t, case.openedAt⟩

/-- What `ensure_review_case` returns, and the rows it adds. -/
structure EnsuredReview where
  case : Option ReviewCase
  created : Bool
  cases : List ReviewCase
  events : List ReviewEvent
  triggers : List ReviewCaseTrigger

/-- `ensure_review_case`, with the id and the time a new case gets. -/
def ensureReviewCase (B : Builtins) (store : ReviewStore) (run : MatchRun) (risk : Option RiskAssessment)
    (caseId : Uuid) (now : DateTime) : EnsuredReview :=
  if requiresReview run risk then
    match store.cases.find? (·.matchRunId = run.id) with
    | some existing => ⟨some existing, false, [], [], newTriggers store.triggers existing run risk⟩
    | none =>
      let case := openedCase run caseId now
      ⟨some case, true, [case], [openedEvent B run risk caseId now], newTriggers store.triggers case run risk⟩
  else ⟨none, false, [], [], []⟩

/-- The unique keys of the tables: the id and the run of a case, and the trigger of a case. -/
def ReviewStore.Accepts (store : ReviewStore) (rows : EnsuredReview) : Prop :=
  (∀ c ∈ rows.cases, c.id ∉ store.cases.map (·.id) ∧ c.matchRunId ∉ store.cases.map (·.matchRunId)) ∧
    ∀ t ∈ rows.triggers, (t.reviewCaseId, t.trigger) ∉ store.triggers.map fun u => (u.reviewCaseId, u.trigger)

instance (store : ReviewStore) (rows : EnsuredReview) : Decidable (store.Accepts rows) :=
  inferInstanceAs (Decidable (_ ∧ _))

def ReviewStore.insert (store : ReviewStore) (rows : EnsuredReview) : ReviewStore where
  cases := store.cases ++ rows.cases
  events := store.events ++ rows.events
  triggers := store.triggers ++ rows.triggers

def ReviewCase.state (case : ReviewCase) : ReviewState where
  status := case.status
  assignee := case.assignedReviewerId
  version := case.version
  resolution := case.resolution
  resolutionReason := case.resolutionReason

/-- The row after the conditional update of `_apply`. -/
def ReviewCase.update (case : ReviewCase) (t : Transition) (now : DateTime) : ReviewCase :=
  { case with
    status := t.status
    assignedReviewerId := t.assignee
    version := case.version + 1
    resolution := t.resolution
    resolutionReason := t.resolutionReason
    claimedAt := match t.eventType with
      | .caseClaimed => some now
      | .caseReleased => none
      | _ => case.claimedAt
    resolvedAt := match t.eventType with
      | .caseResolved => some now
      | _ => case.resolvedAt }

/-- What a client sends: the action, who sends it with which roles, and the version it has seen. -/
structure ReviewCommand where
  action : ReviewAction
  actorId : String
  expectedVersion : ℤ
  actorRoles : List String
deriving DecidableEq, Repr

def eventPayload (t : Transition) (actorRoles : List String) : List (String × Json) :=
  t.payload ++ if actorRoles = [] then [] else [("actor_roles", .arr (actorRoles.map .str))]

/-- The event of an accepted command, after the event `previous` of the version it was accepted on. -/
def transitionEvent (B : Builtins) (case : ReviewCase) (t : Transition) (command : ReviewCommand)
    (now : DateTime) (previous : ReviewEvent) : ReviewEvent :=
  newEvent B
    { caseId := case.id
      sequenceNumber := case.version + 1
      eventType := t.eventType
      actorId := command.actorId
      occurredAt := now
      payload := eventPayload t command.actorRoles
      previousHash := some previous.eventHash }

inductive ReviewError
  | caseNotFound
  | transition (e : ReviewTransitionError)
  | historyIncomplete
deriving DecidableEq, Repr

def ReviewCommand.transition (command : ReviewCommand) (case : ReviewCase) : Except ReviewTransitionError Transition :=
  command.action.transition case.state command.actorId command.expectedVersion

/-- The event with a given number of a case. -/
def eventAt (events : List ReviewEvent) (caseId : Uuid) (n : ℕ) : Option ReviewEvent :=
  events.find? fun e => e.reviewCaseId = caseId ∧ e.sequenceNumber = n

/-- A command on a case, from the read of the case to the commit. The table of events has at most one
event of a number; a second one is refused as a stale version. -/
def ReviewStore.perform (B : Builtins) (store : ReviewStore) (caseId : Uuid) (command : ReviewCommand)
    (now : DateTime) : Except ReviewError ReviewStore :=
  match store.cases.find? (·.id = caseId) with
  | none => .error .caseNotFound
  | some case =>
    match command.transition case with
    | .error e => .error (.transition e)
    | .ok t =>
      match eventAt store.events caseId case.version with
      | none => .error .historyIncomplete
      | some previous =>
        if (eventAt store.events caseId (case.version + 1)).isSome then .error (.transition staleVersion)
        else .ok
          { store with
            cases := store.cases.map fun c =>
              if c.id = caseId ∧ c.version = case.version then c.update t now else c
            events := store.events ++ [transitionEvent B case t command now previous] }

/-- The events of a case in the order of their numbers. -/
def ReviewStore.eventsOf (store : ReviewStore) (caseId : Uuid) : List ReviewEvent :=
  (store.events.filter (·.reviewCaseId = caseId)).insertionSort fun e e' => e.sequenceNumber ≤ e'.sequenceNumber

/-- `verify_audit` on the store; an unknown case is an error. -/
def ReviewStore.verifyAudit (B : Builtins) (store : ReviewStore) (caseId : Uuid) : Option AuditVerification :=
  (store.cases.find? (·.id = caseId)).map fun case => InvoiceOps.verifyAudit B case (store.eventsOf caseId)

/-- An operation of the service. -/
inductive ReviewOp
  | ensure (run : MatchRun) (risk : Option RiskAssessment) (caseId : Uuid) (now : DateTime)
  | command (caseId : Uuid) (command : ReviewCommand) (now : DateTime)

/-- One operation; when it fails its transaction is rolled back. -/
def ReviewStore.step (B : Builtins) (store : ReviewStore) : ReviewOp → ReviewStore
  | .ensure run risk caseId now =>
    let rows := ensureReviewCase B store run risk caseId now
    if store.Accepts rows then store.insert rows else store
  | .command caseId command now =>
    match store.perform B caseId command now with
    | .ok store' => store'
    | .error _ => store

/-- The store after a sequence of operations on empty tables. -/
def ReviewStore.after (B : Builtins) (ops : List ReviewOp) : ReviewStore := ops.foldl (ReviewStore.step B) .empty

section

variable {B : Builtins} {case : ReviewCase} {command : ReviewCommand} {t : Transition} {now : DateTime}

theorem readResolution_value (r : ReviewResolution) : readResolution (some (.str r.value)) = some r := by
  cases r <;> decide

/-- The replay of the event of an accepted command follows the update of the row. -/
theorem reconstruct_transitionEvent {state : ReconstructedState} (now : DateTime) (previous : ReviewEvent)
    (hstate : state.Matches case) (h : command.transition case = .ok t) :
    ∃ state', reconstructEvent B state (transitionEvent B case t command now previous) = some state' ∧
      state'.Matches (case.update t now) := by
  obtain ⟨hstatus, hassignee, hresolution, hreason, hversion⟩ := hstate
  obtain ⟨-, haccepted⟩ := ReviewAction.transition_ok.1 h
  generalize haction : command.action = action at haccepted
  cases haccepted with
  | claim hs =>
    refine ⟨⟨some .claimed, some command.actorId, none, none, state.version + 1, state.openingTriggers⟩, ?_, ?_⟩
    · have : state.status = some .opened := hstatus.trans (congrArg some hs)
      simp [reconstructEvent, transitionEvent, newEvent, applyEvent, this]
    · simp [ReconstructedState.Matches, ReviewCase.update, hversion]
  | release hs ha =>
    refine ⟨⟨some .opened, none, none, none, state.version + 1, state.openingTriggers⟩, ?_, ?_⟩
    · have h1 : state.status = some .claimed := hstatus.trans (congrArg some hs)
      have h2 : state.assignee = some command.actorId := hassignee.trans ha
      simp [reconstructEvent, transitionEvent, newEvent, applyEvent, h1, h2]
    · simp [ReconstructedState.Matches, ReviewCase.update, hversion]
  | comment hs =>
    refine ⟨{ state with version := state.version + 1 }, ?_, ?_⟩
    · have h1 : case.status ≠ .resolved := hs
      simp [reconstructEvent, transitionEvent, newEvent, applyEvent, hstatus, h1]
    · exact ⟨hstatus, hassignee, hresolution, hreason, congrArg (· + 1) hversion⟩
  | @resolve resolution reason hs ha hr =>
    refine ⟨⟨some .resolved, some command.actorId, some resolution, some (Text.strip reason), state.version + 1,
      state.openingTriggers⟩, ?_, ?_⟩
    · have h1 : state.status = some .claimed := hstatus.trans (congrArg some hs)
      have h2 : state.assignee = some command.actorId := hassignee.trans ha
      simp [reconstructEvent, transitionEvent, newEvent, applyEvent, eventPayload, List.lookup_cons, Builtins.str,
        readResolution_value, h1, h2]
    · simp [ReconstructedState.Matches, ReviewCase.update, hversion]

/-- The events of a case lead, without an error, to the state of its row. -/
structure CaseLog (B : Builtins) (case : ReviewCase) (events : List ReviewEvent) : Prop where
  clean : ∃ state, verifyEvents B case.id 1 none .initial events = ([], state) ∧ state.Matches case
  length : events.length = case.version

theorem CaseLog.linked {events : List ReviewEvent} (h : CaseLog B case events) :
    Linked ReviewEvent.sequenceNumber ReviewEvent.previousHash ReviewEvent.eventHash 1 none events ∧
      ∀ e ∈ events, eventHash B.sha256 (e.envelope case.id) e.hashVersion = some e.eventHash := by
  obtain ⟨state, hclean, -⟩ := h.clean
  exact linked_of_clean hclean

theorem CaseLog.numbers {events : List ReviewEvent} (h : CaseLog B case events) :
    events.map (·.sequenceNumber) = List.range' 1 case.version := by
  rw [← h.length]
  exact h.linked.1.numbers

/-- The event with the number of the version is the last one. -/
theorem CaseLog.find_version {events : List ReviewEvent} (h : CaseLog B case events) :
    ∃ last, events.find? (·.sequenceNumber = case.version) = some last ∧
      lastDigest ReviewEvent.eventHash none events = some last.eventHash := by
  have hnd : (events.map (·.sequenceNumber)).Nodup := by
    rw [h.numbers]
    exact List.nodup_range'
  obtain ⟨state, hclean, hmatches⟩ := h.clean
  cases events using List.reverseRecOn with
  | nil =>
    obtain rfl : ReconstructedState.initial = state := congrArg Prod.snd hclean
    cases hmatches.1
  | append_singleton es last =>
    obtain ⟨-, hnumber, -⟩ := linked_snoc.1 h.linked.1
    have hlen : es.length + 1 = case.version := by simpa using h.length
    have hlast : last.sequenceNumber = case.version := by omega
    refine ⟨last, ?_, by simp⟩
    rw [← hlast]
    exact Lists.find?_key hnd (by simp)

/-- The log after an accepted command. -/
theorem CaseLog.snoc {events : List ReviewEvent} {previous : ReviewEvent} (h : CaseLog B case events)
    (ht : command.transition case = .ok t)
    (hprevious : events.find? (·.sequenceNumber = case.version) = some previous) :
    CaseLog B (case.update t now) (events ++ [transitionEvent B case t command now previous]) := by
  obtain ⟨state, hclean, hmatches⟩ := h.clean
  obtain ⟨last, hlast, hdigest⟩ := h.find_version
  obtain rfl : last = previous := Option.some.inj (hlast.symm.trans hprevious)
  obtain ⟨state', hreconstruct, hmatches'⟩ := reconstruct_transitionEvent (B := B) now last hmatches ht
  refine ⟨⟨state', verifyEvents_snoc hclean ?_ hreconstruct, hmatches'⟩, ?_⟩
  · refine chainErrors_newEvent rfl ?_ hdigest.symm
    rw [h.length]
    exact Nat.add_comm _ _
  · simp [ReviewCase.update, h.length]

theorem caseLog_opened (run : MatchRun) (risk : Option RiskAssessment) (caseId : Uuid) :
    CaseLog B (openedCase run caseId now) [openedEvent B run risk caseId now] := by
  refine ⟨⟨⟨some .opened, none, none, none, 1, openingTriggers (openingPayload run risk)⟩, ?_, ?_⟩, rfl⟩
  · exact verifyEvents_cons_clean.2 ⟨chainErrors_newEvent rfl rfl rfl, _, rfl, rfl⟩
  · exact ⟨rfl, rfl, rfl, rfl, rfl⟩

end

/-- The rows of a case in the tables. -/
structure AuditOk (B : Builtins) (store : ReviewStore) : Prop where
  ids : (store.cases.map (·.id)).Nodup
  logs : ∀ c ∈ store.cases, CaseLog B c (store.events.filter (·.reviewCaseId = c.id))
  owned : ∀ e ∈ store.events, e.reviewCaseId ∈ store.cases.map (·.id)

section

variable {B : Builtins} {store store' : ReviewStore}

theorem auditOk_empty : AuditOk B .empty := ⟨List.nodup_nil, by simp [ReviewStore.empty], by simp [ReviewStore.empty]⟩

theorem eventAt_eq (events : List ReviewEvent) (caseId : Uuid) (n : ℕ) :
    eventAt events caseId n = (events.filter (·.reviewCaseId = caseId)).find? (·.sequenceNumber = n) := by
  rw [eventAt, List.find?_filter]
  simp

theorem filter_append_own {events : List ReviewEvent} {e : ReviewEvent} {caseId : Uuid}
    (h : e.reviewCaseId = caseId) : (events ++ [e]).filter (·.reviewCaseId = caseId) =
      events.filter (·.reviewCaseId = caseId) ++ [e] := by
  simp [h]

theorem filter_append_other {events : List ReviewEvent} {e : ReviewEvent} {caseId : Uuid}
    (h : e.reviewCaseId ≠ caseId) :
    (events ++ [e]).filter (·.reviewCaseId = caseId) = events.filter (·.reviewCaseId = caseId) := by
  simp [h]

/-- `ensure_review_case` adds at most the rows of one opened case. -/
theorem ensureReviewCase_rows (B : Builtins) (store : ReviewStore) (run : MatchRun) (risk : Option RiskAssessment)
    (caseId : Uuid) (now : DateTime) :
    ((ensureReviewCase B store run risk caseId now).cases = [] ∧
      (ensureReviewCase B store run risk caseId now).events = []) ∨
    ((ensureReviewCase B store run risk caseId now).cases = [openedCase run caseId now] ∧
      (ensureReviewCase B store run risk caseId now).events = [openedEvent B run risk caseId now]) := by
  unfold ensureReviewCase
  by_cases hrequired : requiresReview run risk = true
  · rw [if_pos hrequired]
    cases store.cases.find? (·.matchRunId = run.id) with
    | some existing => exact .inl ⟨rfl, rfl⟩
    | none => exact .inr ⟨rfl, rfl⟩
  · rw [if_neg hrequired]
    exact .inl ⟨rfl, rfl⟩

theorem AuditOk.open {run : MatchRun} {risk : Option RiskAssessment} {caseId : Uuid} {now : DateTime}
    {triggers : List ReviewCaseTrigger} (hok : AuditOk B store) (hused : caseId ∉ store.cases.map (·.id)) :
    AuditOk B ⟨store.cases ++ [openedCase run caseId now], store.events ++ [openedEvent B run risk caseId now],
      triggers⟩ := by
  refine ⟨?_, ?_, ?_⟩
  · rw [List.map_append, List.map_singleton]
    refine List.nodup_append.2 ⟨hok.ids, List.nodup_singleton _, fun a ha b hb hab => hused ?_⟩
    have hb' : b = caseId := List.mem_singleton.1 hb
    rw [← hb', ← hab]
    exact ha
  · intro c hc
    rcases List.mem_append.1 hc with hc | hc
    · have hne : (openedEvent B run risk caseId now).reviewCaseId ≠ c.id := fun heq =>
        hused (List.mem_map.2 ⟨c, hc, heq.symm⟩)
      rw [filter_append_other hne]
      exact hok.logs c hc
    · obtain rfl := List.mem_singleton.1 hc
      have hnone : store.events.filter (·.reviewCaseId = (openedCase run caseId now).id) = [] := by
        rw [List.filter_eq_nil_iff]
        intro e he heq
        have hsame : e.reviewCaseId = caseId := of_decide_eq_true heq
        exact hused (hsame ▸ hok.owned e he)
      rw [filter_append_own (show _ = (openedCase run caseId now).id from rfl), hnone]
      exact caseLog_opened run risk caseId
  · intro e he
    rw [List.map_append]
    rcases List.mem_append.1 he with he | he
    · exact List.mem_append_left _ (hok.owned e he)
    · obtain rfl := List.mem_singleton.1 he
      exact List.mem_append_right _ (List.mem_singleton.2 rfl)

theorem AuditOk.ensure {run : MatchRun} {risk : Option RiskAssessment} {caseId : Uuid} {now : DateTime}
    (hok : AuditOk B store) (h : store.Accepts (ensureReviewCase B store run risk caseId now)) :
    AuditOk B (store.insert (ensureReviewCase B store run risk caseId now)) := by
  rcases ensureReviewCase_rows B store run risk caseId now with ⟨hcases, hevents⟩ | ⟨hcases, hevents⟩
  · simp only [ReviewStore.insert, hcases, hevents, List.append_nil]
    exact ⟨hok.ids, hok.logs, hok.owned⟩
  · have hused : caseId ∉ store.cases.map (·.id) := (h.1 (openedCase run caseId now) (by simp [hcases])).1
    simp only [ReviewStore.insert, hcases, hevents]
    exact hok.open hused

/-- What an accepted command does to the tables. -/
theorem perform_ok {caseId : Uuid} {command : ReviewCommand} {now : DateTime}
    (h : store.perform B caseId command now = .ok store') :
    ∃ case t previous, store.cases.find? (·.id = caseId) = some case ∧ command.transition case = .ok t ∧
      eventAt store.events caseId case.version = some previous ∧
      store' = { store with
        cases := store.cases.map fun c => if c.id = caseId ∧ c.version = case.version then c.update t now else c
        events := store.events ++ [transitionEvent B case t command now previous] } := by
  unfold ReviewStore.perform at h
  cases hfind : store.cases.find? (·.id = caseId) with
  | none => simp [hfind] at h
  | some case =>
    cases ht : command.transition case with
    | error e => simp [hfind, ht] at h
    | ok t =>
      cases hprevious : eventAt store.events caseId case.version with
      | none => simp [hfind, ht, hprevious] at h
      | some previous =>
        simp only [hfind, ht, hprevious] at h
        split_ifs at h with hnext
        exact ⟨case, t, previous, rfl, ht, hprevious, (Except.ok.inj h).symm⟩

theorem AuditOk.perform {caseId : Uuid} {command : ReviewCommand} {now : DateTime} (hok : AuditOk B store)
    (h : store.perform B caseId command now = .ok store') : AuditOk B store' := by
  obtain ⟨case, t, previous, hfind, ht, hprevious, rfl⟩ := perform_ok h
  have hmem : case ∈ store.cases := List.mem_of_find?_eq_some hfind
  have hid : case.id = caseId := by simpa using List.find?_some hfind
  have hids : (store.cases.map fun c => if c.id = caseId ∧ c.version = case.version then c.update t now
      else c).map (·.id) = store.cases.map (·.id) := by
    rw [List.map_map]
    refine List.map_congr_left fun c _ => ?_
    by_cases hc : c.id = caseId ∧ c.version = case.version <;> simp [hc, ReviewCase.update]
  refine ⟨by rw [hids]; exact hok.ids, ?_, ?_⟩
  · intro c' hc'
    obtain ⟨c, hc, rfl⟩ := List.mem_map.1 hc'
    by_cases heq : c.id = caseId
    · -- ids are unique, so this is the row the command was accepted on
      obtain rfl : c = case := List.inj_on_of_nodup_map hok.ids hc hmem (heq.trans hid.symm)
      rw [if_pos ⟨heq, rfl⟩]
      rw [eventAt_eq, ← heq] at hprevious
      rw [filter_append_own (show _ = (c.update t now).id from rfl)]
      exact (hok.logs c hc).snoc ht hprevious
    · rw [if_neg fun hboth => heq hboth.1, filter_append_other ?_]
      · exact hok.logs c hc
      · exact fun hsame => heq (hsame.symm.trans hid)
  · intro e he
    rw [hids]
    rcases List.mem_append.1 he with he | he
    · exact hok.owned e he
    · obtain rfl := List.mem_singleton.1 he
      exact List.mem_map_of_mem hmem

theorem AuditOk.step (hok : AuditOk B store) (op : ReviewOp) : AuditOk B (store.step B op) := by
  cases op with
  | ensure run risk caseId now =>
    by_cases h : store.Accepts (ensureReviewCase B store run risk caseId now)
    · simpa [ReviewStore.step, h] using hok.ensure h
    · simpa [ReviewStore.step, h] using hok
  | command caseId command now =>
    cases h : store.perform B caseId command now with
    | error e => simpa [ReviewStore.step, h] using hok
    | ok store' => simpa [ReviewStore.step, h] using hok.perform h

theorem auditOk_after (B : Builtins) (ops : List ReviewOp) : AuditOk B (ReviewStore.after B ops) := by
  unfold ReviewStore.after
  induction ops using List.reverseRecOn with
  | nil => exact auditOk_empty
  | append_singleton ops op ih =>
    rw [List.foldl_append]
    exact ih.step op

/-- The numbers of a log are in order, so sorting by them changes nothing. -/
theorem eventsOf_eq {case : ReviewCase} (h : CaseLog B case (store.events.filter (·.reviewCaseId = case.id))) :
    store.eventsOf case.id = store.events.filter (·.reviewCaseId = case.id) := by
  refine List.Pairwise.insertionSort_eq ?_
  rw [← List.pairwise_map (f := ReviewEvent.sequenceNumber) (R := (· ≤ ·)), h.numbers]
  exact List.pairwise_le_range'

theorem CaseLog.verifyAudit {case : ReviewCase} {events : List ReviewEvent} (h : CaseLog B case events) :
    (verifyAudit B case events).errors = [] ∧ (InvoiceOps.verifyAudit B case events).reconstructed.Matches case := by
  obtain ⟨state, hclean, hmatches⟩ := h.clean
  simp [InvoiceOps.verifyAudit, hclean, hmatches]

end

/-- After any sequence of operations on empty tables, `verify_audit` finds every case valid: its events
are numbered from one to the version of the case, linked and hashed, and lead to the state of the row. -/
theorem verifyAudit_after (B : Builtins) (ops : List ReviewOp) :
    ∀ case ∈ (ReviewStore.after B ops).cases, ∃ report,
      (ReviewStore.after B ops).verifyAudit B case.id = some report ∧ report.valid = true ∧ report.errors = [] ∧
      ((ReviewStore.after B ops).eventsOf case.id).map (·.sequenceNumber) = List.range' 1 case.version ∧
      Linked ReviewEvent.sequenceNumber ReviewEvent.previousHash ReviewEvent.eventHash 1 none
        ((ReviewStore.after B ops).eventsOf case.id) ∧
      (∀ e ∈ (ReviewStore.after B ops).eventsOf case.id,
        eventHash B.sha256 (e.envelope case.id) e.hashVersion = some e.eventHash) ∧
      report.reconstructed.Matches case := by
  intro case hcase
  have hok : AuditOk B (ReviewStore.after B ops) := auditOk_after B ops
  have hlog := hok.logs case hcase
  have hfind : (ReviewStore.after B ops).cases.find? (·.id = case.id) = some case := Lists.find?_key hok.ids hcase
  have hevents := eventsOf_eq hlog
  rw [← hevents] at hlog
  obtain ⟨herrors, hmatches⟩ := hlog.verifyAudit
  refine ⟨_, by rw [ReviewStore.verifyAudit, hfind]; rfl, ?_, herrors, hlog.numbers, hlog.linked.1, hlog.linked.2,
    hmatches⟩
  exact List.isEmpty_iff.2 herrors

/-- A match run that asks for a review. -/
def reviewedRun : MatchRun where
  id := Uuid.ofNat 2
  documentId := Uuid.ofNat 3
  purchaseOrderId := Uuid.ofNat 4
  extractionRunId := Uuid.ofNat 5
  policyVersion := "matching-v3"
  matchingMode := .twoWay
  matchingContextFingerprint := ""
  riskPolicyVersion := "duplicate-risk-v1"
  decision := .needsReview
  result := ⟨.needsReview, ⟨0, 0, 0, 0, 1⟩, [], [], [.currencyMismatch]⟩

/-- A case that is opened, claimed and resolved; the comment with an old version is refused. -/
def resolvedOps : List ReviewOp :=
  [.ensure reviewedRun none (Uuid.ofNat 1) .first,
    .command (Uuid.ofNat 1) ⟨.claim, "ann", 1, ["reviewer"]⟩ .first,
    .ensure reviewedRun none (Uuid.ofNat 9) .first,
    .command (Uuid.ofNat 1) ⟨.comment "late", "bob", 1, []⟩ .first,
    .command (Uuid.ofNat 1) ⟨.resolve .acceptedException " agreed ", "ann", 2, []⟩ .first]

def resolvedCase : ReviewCase where
  id := Uuid.ofNat 1
  matchRunId := Uuid.ofNat 2
  status := .resolved
  assignedReviewerId := some "ann"
  version := 3
  openedAt := .first
  claimedAt := some .first
  resolvedAt := some .first
  resolution := some .acceptedException
  resolutionReason := some "agreed"

theorem verifyAudit_after_resolvedOps : resolvedCase ∈ (ReviewStore.after byteChars resolvedOps).cases ∧
    ∃ report, (ReviewStore.after byteChars resolvedOps).verifyAudit byteChars resolvedCase.id = some report ∧
      report.valid = true := by
  have hmem : resolvedCase ∈ (ReviewStore.after byteChars resolvedOps).cases := by decide +kernel
  obtain ⟨report, hreport, hvalid, -⟩ := verifyAudit_after byteChars resolvedOps resolvedCase hmem
  exact ⟨hmem, report, hreport, hvalid⟩

end InvoiceOps
