import InvoiceOps.Lib.Json
import InvoiceOps.Lib.Text

/-! The review state machine (`review/state.py`): what a claim, release, comment or resolution does
to a case, or why it is refused. -/

namespace InvoiceOps

inductive ReviewStatus
  | opened
  | claimed
  | resolved
deriving DecidableEq, Repr

inductive ReviewResolution
  | acceptedException
  | rejectedDocument
  | correctionRequested
deriving DecidableEq, Repr

inductive ReviewEventType
  | caseOpened
  | caseClaimed
  | commentAdded
  | caseReleased
  | caseResolved
deriving DecidableEq, Repr

def ReviewResolution.value : ReviewResolution → String
  | .acceptedException => "ACCEPTED_EXCEPTION"
  | .rejectedDocument => "REJECTED_DOCUMENT"
  | .correctionRequested => "CORRECTION_REQUESTED"

def ReviewEventType.value : ReviewEventType → String
  | .caseOpened => "CASE_OPENED"
  | .caseClaimed => "CASE_CLAIMED"
  | .commentAdded => "COMMENT_ADDED"
  | .caseReleased => "CASE_RELEASED"
  | .caseResolved => "CASE_RESOLVED"

inductive TransitionErrorCode
  | staleVersion
  | invalidTransition
  | caseResolved
  | reviewerOwnershipConflict
  | resolutionReasonRequired
deriving DecidableEq, Repr

structure ReviewTransitionError where
  code : TransitionErrorCode
  message : String
deriving DecidableEq, Repr

structure ReviewState where
  status : ReviewStatus
  assignee : Option String
  version : ℕ
  resolution : Option ReviewResolution
  resolutionReason : Option String
deriving DecidableEq, Repr

/-- What a command changes; the payload becomes the one of its event. -/
structure Transition where
  eventType : ReviewEventType
  status : ReviewStatus
  assignee : Option String
  resolution : Option ReviewResolution
  resolutionReason : Option String
  payload : List (String × Json)

def staleVersion : ReviewTransitionError := ⟨.staleVersion, "The review case version is stale"⟩

def validateExpectedVersion (state : ReviewState) (expectedVersion : ℤ) : Except ReviewTransitionError Unit :=
  if expectedVersion ≠ state.version then .error staleVersion else .ok ()

def requireAssignedClaim (state : ReviewState) (actorId : String) : Except ReviewTransitionError Unit :=
  if state.status = .resolved then .error ⟨.caseResolved, "A resolved case cannot be changed"⟩
  else if state.status ≠ .claimed then .error ⟨.invalidTransition, "The case must be claimed first"⟩
  else if state.assignee ≠ some actorId then
    .error ⟨.reviewerOwnershipConflict, "Only the assigned reviewer can perform this action"⟩
  else .ok ()

def claim (state : ReviewState) (actorId : String) (expectedVersion : ℤ) :
    Except ReviewTransitionError Transition := do
  validateExpectedVersion state expectedVersion
  if state.status ≠ .opened then .error ⟨.invalidTransition, "Only an open case can be claimed"⟩
  else .ok ⟨.caseClaimed, .claimed, some actorId, none, none, [("reviewer_id", .str actorId)]⟩

def release (state : ReviewState) (actorId : String) (expectedVersion : ℤ) (reason : String) :
    Except ReviewTransitionError Transition := do
  validateExpectedVersion state expectedVersion
  requireAssignedClaim state actorId
  .ok ⟨.caseReleased, .opened, none, none, none, [("reason", .str reason)]⟩

def comment (state : ReviewState) (expectedVersion : ℤ) (text : String) :
    Except ReviewTransitionError Transition := do
  validateExpectedVersion state expectedVersion
  if state.status = .resolved then .error ⟨.caseResolved, "A resolved case cannot be changed"⟩
  else .ok ⟨.commentAdded, state.status, state.assignee, state.resolution, state.resolutionReason,
    [("comment", .str text)]⟩

def resolve (state : ReviewState) (actorId : String) (expectedVersion : ℤ) (resolution : ReviewResolution)
    (reason : String) : Except ReviewTransitionError Transition := do
  validateExpectedVersion state expectedVersion
  requireAssignedClaim state actorId
  if Text.strip reason = "" then
    .error ⟨.resolutionReasonRequired, "Resolution requires an explanation"⟩
  else .ok ⟨.caseResolved, .resolved, some actorId, some resolution, some (Text.strip reason),
    [("resolution", .str resolution.value), ("reason", .str (Text.strip reason))]⟩

/-- The four commands, with what a client sends besides its identity and the expected version. -/
inductive ReviewAction
  | claim
  | release (reason : String)
  | comment (text : String)
  | resolve (resolution : ReviewResolution) (reason : String)
deriving DecidableEq, Repr

def ReviewAction.transition (action : ReviewAction) (state : ReviewState) (actorId : String)
    (expectedVersion : ℤ) : Except ReviewTransitionError Transition :=
  match action with
  | .claim => InvoiceOps.claim state actorId expectedVersion
  | .release reason => InvoiceOps.release state actorId expectedVersion reason
  | .comment text => InvoiceOps.comment state expectedVersion text
  | .resolve resolution reason => InvoiceOps.resolve state actorId expectedVersion resolution reason

/-- Release and resolve are for the reviewer who holds the claim. -/
def ReviewAction.ForAssignee : ReviewAction → Prop
  | .release _ | .resolve _ _ => True
  | .claim | .comment _ => False

/-- The four ways a command is accepted. -/
inductive Accepted (state : ReviewState) (actorId : String) : ReviewAction → Transition → Prop
  | claim : state.status = .opened → Accepted state actorId .claim
      ⟨.caseClaimed, .claimed, some actorId, none, none, [("reviewer_id", .str actorId)]⟩
  | release {reason : String} : state.status = .claimed → state.assignee = some actorId →
      Accepted state actorId (.release reason)
        ⟨.caseReleased, .opened, none, none, none, [("reason", .str reason)]⟩
  | comment {text : String} : state.status ≠ .resolved → Accepted state actorId (.comment text)
      ⟨.commentAdded, state.status, state.assignee, state.resolution, state.resolutionReason,
        [("comment", .str text)]⟩
  | resolve {resolution : ReviewResolution} {reason : String} : state.status = .claimed →
      state.assignee = some actorId → Text.strip reason ≠ "" →
      Accepted state actorId (.resolve resolution reason)
        ⟨.caseResolved, .resolved, some actorId, some resolution, some (Text.strip reason),
          [("resolution", .str resolution.value), ("reason", .str (Text.strip reason))]⟩

section

variable {state : ReviewState} {actorId : String} {expectedVersion : ℤ} {t : Transition}

theorem validateExpectedVersion_ok :
    validateExpectedVersion state expectedVersion = .ok () ↔ expectedVersion = state.version := by
  unfold validateExpectedVersion
  by_cases h : expectedVersion = state.version <;> simp [h]

theorem requireAssignedClaim_ok : requireAssignedClaim state actorId = .ok () ↔
    state.status = .claimed ∧ state.assignee = some actorId := by
  unfold requireAssignedClaim
  split_ifs with h h' h'' <;> simp_all

theorem check_bind_ok {ε β : Type} {x : Except ε Unit} {f : Unit → Except ε β} {b : β} :
    (x >>= f) = .ok b ↔ x = .ok () ∧ f () = .ok b := by
  cases x <;> simp [bind, Except.bind]

/-- A command is accepted when the version is the expected one and its own condition holds. -/
theorem ReviewAction.transition_ok {action : ReviewAction} :
    action.transition state actorId expectedVersion = .ok t ↔
      expectedVersion = state.version ∧ Accepted state actorId action t := by
  cases action with
  | claim =>
    simp only [transition, InvoiceOps.claim, check_bind_ok, validateExpectedVersion_ok]
    refine and_congr_right fun _ => ?_
    by_cases hs : state.status = .opened
    · simp only [hs, ne_eq, not_true_eq_false, if_false, Except.ok.injEq]
      refine ⟨fun h => h ▸ .claim hs, fun h => ?_⟩
      cases h
      rfl
    · simp only [ne_eq, hs, not_false_eq_true, if_true, reduceCtorEq, false_iff]
      intro h
      cases h with
      | claim h => exact hs h
  | release reason =>
    simp only [transition, InvoiceOps.release, check_bind_ok, validateExpectedVersion_ok,
      requireAssignedClaim_ok, Except.ok.injEq]
    refine and_congr_right fun _ => ⟨fun h => ?_, fun h => ?_⟩
    · obtain ⟨⟨hs, ha⟩, rfl⟩ := h
      exact .release hs ha
    · cases h with
      | release hs ha => exact ⟨⟨hs, ha⟩, rfl⟩
  | comment text =>
    simp only [transition, InvoiceOps.comment, check_bind_ok, validateExpectedVersion_ok]
    refine and_congr_right fun _ => ?_
    by_cases hs : state.status = .resolved
    · simp only [hs, if_true, reduceCtorEq, false_iff]
      intro h
      cases h with
      | comment h => exact h hs
    · simp only [hs, if_false, Except.ok.injEq]
      refine ⟨fun h => h ▸ .comment hs, fun h => ?_⟩
      cases h
      rfl
  | resolve resolution reason =>
    simp only [transition, InvoiceOps.resolve, check_bind_ok, validateExpectedVersion_ok,
      requireAssignedClaim_ok]
    refine and_congr_right fun _ => ⟨fun h => ?_, fun h => ?_⟩
    · obtain ⟨⟨hs, ha⟩, h⟩ := h
      split_ifs at h with hr
      obtain rfl := Except.ok.inj h
      exact .resolve hs ha hr
    · cases h with
      | resolve hs ha hr => exact ⟨⟨hs, ha⟩, by rw [if_neg hr]⟩

end

end InvoiceOps
