import InvoiceOps.Lib.Calendar
import InvoiceOps.Lib.HashChain
import InvoiceOps.Lib.Uuid
import InvoiceOps.Review.State

/-! The audit log of a review case (`review/audit.py` and `verify_audit` of `review/service.py`): the
hashed content of an event, the replay of the events, and the verification. The content of a version-2
event determines the event, so a verified log is fixed by its last hash. -/

namespace InvoiceOps

open Calendar HashChain

def auditHashV1 : String := "review-audit-v1"

def auditHashV2 : String := "review-audit-v2"

def systemActorId : String := "system:matching"

/-- What the source takes from Python: the digest, and the text of a list or a dict. -/
structure Builtins where
  sha256 : ByteArray → String
  repr : Json → String

/-- `str` of a value. -/
def Builtins.str (B : Builtins) : Json → String
  | .null => "None"
  | .bool b => if b then "True" else "False"
  | .int i => toString i
  | .str s => s
  | v => B.repr v

def canonicalJson (payload : Json) : String := Json.dumps Json.escape payload

def canonicalUtc (value : DateTime) : String := value.utcText

/-- What `event_hash` is given besides the version. -/
structure EventEnvelope where
  caseId : Uuid
  sequenceNumber : ℕ
  eventType : ReviewEventType
  actorId : String
  occurredAt : DateTime
  payload : List (String × Json)
  previousHash : Option String

/-- Version 1: the components one after the other. -/
def contentV1 (e : EventEnvelope) : String :=
  e.caseId.str ++ toString e.sequenceNumber ++ e.eventType.value ++ e.actorId ++ canonicalUtc e.occurredAt ++
    canonicalJson (.obj e.payload) ++ e.previousHash.getD ""

def envelopeFields (e : EventEnvelope) : List (String × Json) :=
  [("hash_version", .str auditHashV2), ("review_case_id", .str e.caseId.str),
    ("sequence_number", .int e.sequenceNumber), ("event_type", .str e.eventType.value),
    ("actor_id", .str e.actorId), ("occurred_at", .str (canonicalUtc e.occurredAt)),
    ("payload", .obj e.payload), ("previous_hash", (e.previousHash.map Json.str).getD .null)]

def envelopeJson (e : EventEnvelope) : Json := .obj (envelopeFields e)

/-- Version 2: one JSON object. -/
def contentV2 (e : EventEnvelope) : String := canonicalJson (envelopeJson e)

/-- The source raises for a version it does not know. -/
def eventHash (sha256 : ByteArray → String) (e : EventEnvelope) (hashVersion : String) : Option String :=
  if hashVersion = auditHashV1 then some (sha256 (contentV1 e).toByteArray)
  else if hashVersion = auditHashV2 then some (sha256 (contentV2 e).toByteArray)
  else none

structure ReviewEvent where
  reviewCaseId : Uuid
  sequenceNumber : ℕ
  eventType : ReviewEventType
  actorId : String
  payload : List (String × Json)
  hashVersion : String
  previousHash : Option String
  eventHash : String
  occurredAt : DateTime

structure ReviewCase where
  id : Uuid
  matchRunId : Uuid
  status : ReviewStatus
  assignedReviewerId : Option String
  version : ℕ
  openedAt : DateTime
  claimedAt : Option DateTime
  resolvedAt : Option DateTime
  resolution : Option ReviewResolution
  resolutionReason : Option String
deriving DecidableEq, Repr

/-- What `verify_audit` hashes for a stored event of the case. -/
def ReviewEvent.envelope (e : ReviewEvent) (caseId : Uuid) : EventEnvelope where
  caseId := caseId
  sequenceNumber := e.sequenceNumber
  eventType := e.eventType
  actorId := e.actorId
  occurredAt := e.occurredAt
  payload := e.payload
  previousHash := e.previousHash

/-- An event as the service writes it: version 2, with its hash. -/
def newEvent (B : Builtins) (e : EventEnvelope) : ReviewEvent where
  reviewCaseId := e.caseId
  sequenceNumber := e.sequenceNumber
  eventType := e.eventType
  actorId := e.actorId
  payload := e.payload
  hashVersion := auditHashV2
  previousHash := e.previousHash
  eventHash := B.sha256 (contentV2 e).toByteArray
  occurredAt := e.occurredAt

structure ReconstructedState where
  status : Option ReviewStatus
  assignee : Option String
  resolution : Option ReviewResolution
  resolutionReason : Option String
  version : ℕ
  openingTriggers : List (List (String × Json))

def ReconstructedState.initial : ReconstructedState := ⟨none, none, none, none, 0, []⟩

/-- The objects of the trigger list; anything else is left out. -/
def openingTriggers (payload : List (String × Json)) : List (List (String × Json)) :=
  match payload.lookup "review_triggers" with
  | some (.arr items) => items.filterMap fun item =>
    match item with
    | .obj kvs => some kvs
    | _ => none
  | _ => []

/-- `ReviewResolution(str(...))`; no other value is printed as one of the three names. -/
def readResolution : Option Json → Option ReviewResolution
  | some (.str s) => [.acceptedException, .rejectedDocument, .correctionRequested].find? (·.value = s)
  | _ => none

def applyEvent (B : Builtins) (state : ReconstructedState) (eventType : ReviewEventType) (actorId : String)
    (payload : List (String × Json)) : Option ReconstructedState :=
  match eventType with
  | .caseOpened => some ⟨some .opened, none, none, none, state.version + 1, openingTriggers payload⟩
  | .caseClaimed =>
    some ⟨some .claimed, some actorId, none, none, state.version + 1, state.openingTriggers⟩
  | .commentAdded => some { state with version := state.version + 1 }
  | .caseReleased => some ⟨some .opened, none, none, none, state.version + 1, state.openingTriggers⟩
  | .caseResolved =>
    (readResolution (payload.lookup "resolution")).map fun resolution =>
      ⟨some .resolved, some actorId, some resolution,
        some (((payload.lookup "reason").map B.str).getD ""), state.version + 1, state.openingTriggers⟩

/-- `_reconstruct_event`: the event must be possible in the state. -/
def reconstructEvent (B : Builtins) (state : ReconstructedState) (e : ReviewEvent) : Option ReconstructedState :=
  let possible : Bool := match e.eventType with
    | .caseOpened => state.version = 0 ∧ e.actorId = systemActorId
    | .caseClaimed => state.status = some .opened
    | .commentAdded => state.status ≠ some .resolved ∧ state.status ≠ none
    | .caseReleased | .caseResolved => state.status = some .claimed ∧ state.assignee = some e.actorId
  if possible then applyEvent B state e.eventType e.actorId e.payload else none

inductive AuditError
  | sequenceGap (n : ℕ)
  | previousHashMismatch (n : ℕ)
  | eventHashMismatch (n : ℕ)
  | unsupportedHashVersion (n : ℕ)
  | invalidTransition (n : ℕ)
  | materializedStateMismatch
deriving DecidableEq, Repr

def AuditError.text : AuditError → String
  | .sequenceGap n => "SEQUENCE_GAP_AT_" ++ toString n
  | .previousHashMismatch n => "PREVIOUS_HASH_MISMATCH_AT_" ++ toString n
  | .eventHashMismatch n => "EVENT_HASH_MISMATCH_AT_" ++ toString n
  | .unsupportedHashVersion n => "UNSUPPORTED_HASH_VERSION_AT_" ++ toString n
  | .invalidTransition n => "INVALID_TRANSITION_AT_" ++ toString n
  | .materializedStateMismatch => "MATERIALIZED_STATE_MISMATCH"

section

variable (B : Builtins) (caseId : Uuid)

/-- The checks of one event that do not depend on the replay. -/
def chainErrors (expectedSequence : ℕ) (previousHash : Option String) (e : ReviewEvent) : List AuditError :=
  (if e.sequenceNumber ≠ expectedSequence then [.sequenceGap expectedSequence] else []) ++
  (if e.previousHash ≠ previousHash then [.previousHashMismatch e.sequenceNumber] else []) ++
  match eventHash B.sha256 (e.envelope caseId) e.hashVersion with
  | none => [.unsupportedHashVersion e.sequenceNumber]
  | some h => if e.eventHash ≠ h then [.eventHashMismatch e.sequenceNumber] else []

/-- The loop of `verify_audit`. An event that is not possible is reported and leaves the state. -/
def verifyEvents : ℕ → Option String → ReconstructedState → List ReviewEvent →
    List AuditError × ReconstructedState
  | _, _, state, [] => ([], state)
  | n, previousHash, state, e :: es =>
    match reconstructEvent B state e with
    | some state' =>
      let rest := verifyEvents (n + 1) (some e.eventHash) state' es
      (chainErrors B caseId n previousHash e ++ rest.1, rest.2)
    | none =>
      let rest := verifyEvents (n + 1) (some e.eventHash) state es
      (chainErrors B caseId n previousHash e ++ .invalidTransition e.sequenceNumber :: rest.1, rest.2)

end

def ReconstructedState.Matches (state : ReconstructedState) (case : ReviewCase) : Prop :=
  state.status = some case.status ∧ state.assignee = case.assignedReviewerId ∧
    state.resolution = case.resolution ∧ state.resolutionReason = case.resolutionReason ∧
    state.version = case.version

instance (state : ReconstructedState) (case : ReviewCase) : Decidable (state.Matches case) :=
  inferInstanceAs (Decidable (_ ∧ _))

structure AuditVerification where
  reviewCaseId : Uuid
  valid : Bool
  eventCount : ℕ
  lastSequenceNumber : ℕ
  errors : List AuditError
  reconstructed : ReconstructedState

/-- `verify_audit`, from the row of the case and its events in the order of their numbers. -/
def verifyAudit (B : Builtins) (case : ReviewCase) (events : List ReviewEvent) : AuditVerification :=
  let found := verifyEvents B case.id 1 none .initial events
  let errors := found.1 ++ if found.2.Matches case then [] else [.materializedStateMismatch]
  { reviewCaseId := case.id
    valid := errors.isEmpty
    eventCount := events.length
    lastSequenceNumber := (events.getLast?.map (·.sequenceNumber)).getD 0
    errors := errors
    reconstructed := found.2 }

/-- The same event: payloads up to the order of keys, timestamps as instants. -/
structure EventEnvelope.Agrees (e e' : EventEnvelope) : Prop where
  caseId : e.caseId = e'.caseId
  sequenceNumber : e.sequenceNumber = e'.sequenceNumber
  eventType : e.eventType = e'.eventType
  actorId : e.actorId = e'.actorId
  instant : e.occurredAt.instant = e'.occurredAt.instant
  payload : Json.Same (.obj e.payload) (.obj e'.payload)
  previousHash : e.previousHash = e'.previousHash

theorem ReviewEventType.value_inj {t t' : ReviewEventType} (h : t.value = t'.value) : t = t' := by
  revert h
  cases t <;> cases t' <;> decide

theorem canonicalUtc_inj {t u : DateTime} (h : canonicalUtc t = canonicalUtc u) : t.instant = u.instant := by
  rw [canonicalUtc, canonicalUtc] at h
  exact DateTime.utcText_inj h

theorem previousHash_of_same {h h' : Option String}
    (hs : Json.Same ((h.map Json.str).getD .null) ((h'.map Json.str).getD .null)) : h = h' := by
  cases h <;> cases h' <;> cases hs <;> rfl

theorem keys_envelopeFields (e : EventEnvelope) : (envelopeFields e).map Prod.fst =
    ["hash_version", "review_case_id", "sequence_number", "event_type", "actor_id", "occurred_at",
      "payload", "previous_hash"] := rfl

theorem agrees_of_contentV2 {e e' : EventEnvelope} (h : contentV2 e = contentV2 e') : e.Agrees e' := by
  have hsame : Json.Same (envelopeJson e) (envelopeJson e') := Json.same_of_dumps_eq Json.escape_code h
  have hvalues := hsame.values ((keys_envelopeFields e).trans (keys_envelopeFields e').symm)
    (by rw [keys_envelopeFields]; decide)
  simp only [envelopeFields, List.map_cons, List.map_nil, List.forall₂_cons, List.Forall₂.nil, and_true] at hvalues
  obtain ⟨-, hcase, hseq, htype, hactor, hat, hpayload, hprev⟩ := hvalues
  have hstr : ∀ {s t : String}, Json.Same (.str s) (.str t) → s = t := by
    intro s t hst
    cases hst
    rfl
  refine ⟨Uuid.str_inj (hstr hcase), ?_, ReviewEventType.value_inj (hstr htype), hstr hactor,
    canonicalUtc_inj (hstr hat), hpayload, previousHash_of_same hprev⟩
  generalize hn : (e.sequenceNumber : ℤ) = n at hseq
  generalize hn' : (e'.sequenceNumber : ℤ) = n' at hseq
  cases hseq
  omega

/-- The errors of the three checks that chain the events. -/
def AuditError.Chains : AuditError → Prop
  | .sequenceGap _ | .previousHashMismatch _ | .eventHashMismatch _ => True
  | .unsupportedHashVersion _ | .invalidTransition _ | .materializedStateMismatch => False

section

variable {B : Builtins} {caseId : Uuid}

@[simp] theorem envelope_newEvent (e : EventEnvelope) : (newEvent B e).envelope e.caseId = e := rfl

theorem eventHash_v2 (sha256 : ByteArray → String) (e : EventEnvelope) :
    eventHash sha256 e auditHashV2 = some (sha256 (contentV2 e).toByteArray) := by
  rw [eventHash, if_neg (by decide), if_pos rfl]

theorem chainErrors_clean {n : ℕ} {p : Option String} {e : ReviewEvent} (hv : e.hashVersion = auditHashV2) :
    (∀ x ∈ chainErrors B caseId n p e, ¬ x.Chains) ↔ e.sequenceNumber = n ∧ e.previousHash = p ∧
      e.eventHash = B.sha256 (contentV2 (e.envelope caseId)).toByteArray := by
  have hif : ∀ {c : Prop} [Decidable c] {x : AuditError}, x.Chains →
      ((∀ y ∈ if ¬ c then [x] else [], ¬ y.Chains) ↔ c) := by
    intro c _ x hx
    by_cases hc : c <;> simp [hc, hx]
  simp only [chainErrors, hv, eventHash_v2, List.forall_mem_append, ne_eq]
  rw [hif (x := .sequenceGap n) trivial, hif (x := .previousHashMismatch e.sequenceNumber) trivial,
    hif (x := .eventHashMismatch e.sequenceNumber) trivial, and_assoc]

theorem chainErrors_newEvent {n : ℕ} {p : Option String} {e : EventEnvelope} (hcase : e.caseId = caseId)
    (hn : e.sequenceNumber = n) (hp : e.previousHash = p) : chainErrors B caseId n p (newEvent B e) = [] := by
  subst hcase hn hp
  have hv : (newEvent B e).hashVersion = auditHashV2 := rfl
  have hhash : (newEvent B e).eventHash = B.sha256 (contentV2 e).toByteArray := rfl
  have hnumber : (newEvent B e).sequenceNumber = e.sequenceNumber := rfl
  have hprevious : (newEvent B e).previousHash = e.previousHash := rfl
  simp [chainErrors, hv, hhash, hnumber, hprevious, eventHash_v2]

/-- Without an error of the three checks the events are a chain of recomputed hashes. -/
theorem verifyEvents_linked {n : ℕ} {p : Option String} {state : ReconstructedState} {events : List ReviewEvent}
    (hv : ∀ e ∈ events, e.hashVersion = auditHashV2)
    (h : ∀ x ∈ (verifyEvents B caseId n p state events).1, ¬ x.Chains) :
    Linked ReviewEvent.sequenceNumber ReviewEvent.previousHash ReviewEvent.eventHash n p events ∧
      ∀ e ∈ events, e.eventHash = B.sha256 (contentV2 (e.envelope caseId)).toByteArray := by
  induction events generalizing n p state with
  | nil => exact ⟨trivial, by simp⟩
  | cons e es ih =>
    have hsplit : (∀ x ∈ chainErrors B caseId n p e, ¬ x.Chains) ∧
        ∃ state', ∀ x ∈ (verifyEvents B caseId (n + 1) (some e.eventHash) state' es).1, ¬ x.Chains := by
      unfold verifyEvents at h
      cases hr : reconstructEvent B state e with
      | none =>
        simp only [hr, List.forall_mem_append, List.forall_mem_cons] at h
        exact ⟨h.1, state, h.2.2⟩
      | some state' =>
        simp only [hr, List.forall_mem_append] at h
        exact ⟨h.1, state', h.2⟩
    obtain ⟨hfirst, state', hrest⟩ := hsplit
    obtain ⟨hnum, hprev, hhash⟩ := (chainErrors_clean (hv e (by simp))).1 hfirst
    obtain ⟨hlinked, hhashes⟩ := ih (fun x hx => hv x (by simp [hx])) hrest
    exact ⟨⟨hnum, hprev, hlinked⟩, List.forall_mem_cons.2 ⟨hhash, hhashes⟩⟩

theorem chainErrors_eq_nil {n : ℕ} {p : Option String} {e : ReviewEvent} (h : chainErrors B caseId n p e = []) :
    e.sequenceNumber = n ∧ e.previousHash = p ∧
      eventHash B.sha256 (e.envelope caseId) e.hashVersion = some e.eventHash := by
  simp only [chainErrors, List.append_eq_nil_iff, ne_eq, ite_eq_right_iff, List.cons_ne_nil, imp_false,
    not_not] at h
  obtain ⟨⟨hn, hp⟩, hhash⟩ := h
  refine ⟨hn, hp, ?_⟩
  cases hx : eventHash B.sha256 (e.envelope caseId) e.hashVersion with
  | none => simp [hx] at hhash
  | some x =>
    simp only [hx, ite_eq_right_iff, List.cons_ne_nil, imp_false, not_not] at hhash
    rw [hhash]

theorem verifyEvents_cons_clean {n : ℕ} {p : Option String} {state state' : ReconstructedState}
    {e : ReviewEvent} {es : List ReviewEvent} : verifyEvents B caseId n p state (e :: es) = ([], state') ↔
      chainErrors B caseId n p e = [] ∧ ∃ mid, reconstructEvent B state e = some mid ∧
        verifyEvents B caseId (n + 1) (some e.eventHash) mid es = ([], state') := by
  rw [verifyEvents]
  cases reconstructEvent B state e with
  | none => simp
  | some mid =>
    simp [Prod.ext_iff, and_assoc]

/-- A log without errors is a chain of recomputed hashes. -/
theorem linked_of_clean {n : ℕ} {p : Option String} {state state' : ReconstructedState} {es : List ReviewEvent}
    (h : verifyEvents B caseId n p state es = ([], state')) :
    Linked ReviewEvent.sequenceNumber ReviewEvent.previousHash ReviewEvent.eventHash n p es ∧
      ∀ e ∈ es, eventHash B.sha256 (e.envelope caseId) e.hashVersion = some e.eventHash := by
  induction es generalizing n p state with
  | nil => exact ⟨trivial, by simp⟩
  | cons e es ih =>
    obtain ⟨he, mid, -, h⟩ := verifyEvents_cons_clean.1 h
    obtain ⟨hn, hp, hhash⟩ := chainErrors_eq_nil he
    obtain ⟨hlinked, hhashes⟩ := ih h
    exact ⟨⟨hn, hp, hlinked⟩, List.forall_mem_cons.2 ⟨hhash, hhashes⟩⟩

/-- A log without errors stays so when an event is added that is numbered, linked and hashed as it
should be and is possible in the state the log leads to. -/
theorem verifyEvents_snoc {n : ℕ} {p : Option String} {state mid state' : ReconstructedState}
    {es : List ReviewEvent} {e : ReviewEvent} (h : verifyEvents B caseId n p state es = ([], mid))
    (he : chainErrors B caseId (n + es.length) (lastDigest ReviewEvent.eventHash p es) e = [])
    (hr : reconstructEvent B mid e = some state') :
    verifyEvents B caseId n p state (es ++ [e]) = ([], state') := by
  induction es generalizing n p state with
  | nil =>
    obtain rfl : state = mid := congrArg Prod.snd h
    exact verifyEvents_cons_clean.2 ⟨he, state', hr, rfl⟩
  | cons a es ih =>
    obtain ⟨ha, next, hnext, h⟩ := verifyEvents_cons_clean.1 h
    refine verifyEvents_cons_clean.2 ⟨ha, next, hnext, ih h ?_⟩
    rw [List.length_cons, ← Nat.add_assoc, Nat.add_right_comm] at he
    exact he

end

/-- No two contents of the two logs collide. -/
def CollisionFree (sha256 : ByteArray → String) (caseId : Uuid) (events events' : List ReviewEvent) : Prop :=
  ∀ e ∈ events, ∀ e' ∈ events',
    sha256 (contentV2 (e.envelope caseId)).toByteArray = sha256 (contentV2 (e'.envelope caseId)).toByteArray →
      (contentV2 (e.envelope caseId)).toByteArray = (contentV2 (e'.envelope caseId)).toByteArray

/-- The bytes hashed for a version-2 event determine the event. Two logs of version-2 events of one
case that pass the sequence, previous-hash and event-hash checks and end in the same hash agree event by
event. -/
theorem audit_content_injective (B : Builtins) :
    (∀ e e' : EventEnvelope, (contentV2 e).toByteArray = (contentV2 e').toByteArray → e.Agrees e') ∧
    ∀ (case : ReviewCase) (events events' : List ReviewEvent),
      (∀ e ∈ events ++ events', e.hashVersion = auditHashV2) →
      CollisionFree B.sha256 case.id events events' →
      (∀ x ∈ (verifyAudit B case events).errors, ¬ x.Chains) →
      (∀ x ∈ (verifyAudit B case events').errors, ¬ x.Chains) →
      events.getLast?.map (·.eventHash) = events'.getLast?.map (·.eventHash) →
      events.length = events'.length ∧
        List.Forall₂ (fun e e' => (e.envelope case.id).Agrees (e'.envelope case.id)) events events' := by
  have hinj : ∀ e e' : EventEnvelope, (contentV2 e).toByteArray = (contentV2 e').toByteArray → e.Agrees e' :=
    fun e e' h => agrees_of_contentV2 (String.toByteArray_inj.1 h)
  refine ⟨hinj, fun case events events' hv hfree hok hok' hlast => ?_⟩
  obtain ⟨hlinked, hhash⟩ := verifyEvents_linked (fun e he => hv e (by simp [he]))
    fun x hx => hok x (List.mem_append_left _ hx)
  obtain ⟨hlinked', hhash'⟩ := verifyEvents_linked (fun e he => hv e (by simp [he]))
    fun x hx => hok' x (List.mem_append_left _ hx)
  have hagree : List.Forall₂ (fun e e' => (e.envelope case.id).Agrees (e'.envelope case.id)) events events' := by
    refine agree_of_lastDigest (fun e e' h => ⟨h.sequenceNumber, h.previousHash⟩) (fun e he e' he' h => ?_)
      hlinked hlinked' ?_
    · refine hinj _ _ (hfree e he e' he' ?_)
      rw [← hhash e he, ← hhash' e' he', h]
    · rw [lastDigest_eq, lastDigest_eq, hlast]
  exact ⟨hagree.length_eq, hagree⟩

/-- A digest without collisions: one character for each byte. -/
def byteChars : Builtins where
  sha256 b := String.ofList (b.data.toList.map fun x => Char.ofNat x.toNat)
  repr _ := ""

theorem sha256_byteChars_injective : Function.Injective byteChars.sha256 := by
  intro b c h
  have hchar : Function.Injective fun x : UInt8 => Char.ofNat x.toNat := by
    intro x y hxy
    have hvalid : ∀ z : UInt8, (Char.ofNat z.toNat).toNat = z.toNat := by
      intro z
      have hz : z.toNat < 256 := z.toNat_lt
      have hv : z.toNat.isValidChar := Or.inl (by omega)
      rw [Char.ofNat, dif_pos hv]
      rfl
    refine UInt8.toNat_inj.1 ?_
    rw [← hvalid x, ← hvalid y]
    exact congrArg Char.toNat hxy
  have hlist := (List.map_injective_iff.2 hchar) (String.ofList_injective h)
  exact ByteArray.ext (Array.toList_inj.1 hlist)

def openingEnvelope (t : DateTime) : EventEnvelope where
  caseId := Uuid.ofNat 1
  sequenceNumber := 1
  eventType := .caseOpened
  actorId := systemActorId
  occurredAt := t
  payload := [("match_run_id", .str "2")]
  previousHash := none

def claimEnvelope (t : DateTime) : EventEnvelope where
  caseId := Uuid.ofNat 1
  sequenceNumber := 2
  eventType := .caseClaimed
  actorId := "ann"
  occurredAt := t
  payload := [("reviewer_id", .str "ann")]
  previousHash := some (newEvent byteChars (openingEnvelope t)).eventHash

/-- The log of a case that is opened and claimed. -/
def claimedLog (t : DateTime) : List ReviewEvent :=
  [newEvent byteChars (openingEnvelope t), newEvent byteChars (claimEnvelope t)]

def claimedCase : ReviewCase where
  id := Uuid.ofNat 1
  matchRunId := Uuid.ofNat 2
  status := .claimed
  assignedReviewerId := some "ann"
  version := 2
  openedAt := .first
  claimedAt := some .first
  resolvedAt := none
  resolution := none
  resolutionReason := none

theorem verifyAudit_claimedLog (t : DateTime) : (verifyAudit byteChars claimedCase (claimedLog t)).errors = [] := by
  have hopen : chainErrors byteChars claimedCase.id 1 none (newEvent byteChars (openingEnvelope t)) = [] :=
    chainErrors_newEvent rfl rfl rfl
  have hclaim : chainErrors byteChars claimedCase.id 2 (some (newEvent byteChars (openingEnvelope t)).eventHash)
      (newEvent byteChars (claimEnvelope t)) = [] := chainErrors_newEvent rfl rfl rfl
  have hopened : reconstructEvent byteChars .initial (newEvent byteChars (openingEnvelope t)) =
      some ⟨some .opened, none, none, none, 1, []⟩ := rfl
  have hclaimed : reconstructEvent byteChars ⟨some .opened, none, none, none, 1, []⟩
      (newEvent byteChars (claimEnvelope t)) = some ⟨some .claimed, some "ann", none, none, 2, []⟩ := rfl
  simp only [verifyAudit, claimedLog, verifyEvents, hopened, hclaimed, hopen, hclaim, List.nil_append]
  exact if_pos (by decide)

/-- The hash of the last event does not depend on the offset of the timestamps. -/
theorem hash_claimEnvelope {t u : DateTime} (h : t.instant = u.instant) :
    (newEvent byteChars (claimEnvelope t)).eventHash = (newEvent byteChars (claimEnvelope u)).eventHash := by
  have hutc : canonicalUtc t = canonicalUtc u := by rw [canonicalUtc, canonicalUtc, DateTime.utcText, DateTime.utcText, h]
  simp only [newEvent, contentV2, envelopeJson, envelopeFields, claimEnvelope, openingEnvelope, hutc]

/-- Two logs whose timestamps have different offsets: the events agree. -/
theorem audit_content_injective_claimedLog :
    List.Forall₂ (fun e e' => (e.envelope claimedCase.id).Agrees (e'.envelope claimedCase.id))
      (claimedLog .first) (claimedLog { DateTime.first with offset := some 60 }) := by
  refine ((audit_content_injective byteChars).2 claimedCase _ _ ?_ ?_ ?_ ?_ ?_).2
  · simp [claimedLog, newEvent]
  · exact fun e _ e' _ h => sha256_byteChars_injective h
  · simp [verifyAudit_claimedLog]
  · simp [verifyAudit_claimedLog]
  · exact congrArg some (hash_claimEnvelope rfl)

end InvoiceOps
