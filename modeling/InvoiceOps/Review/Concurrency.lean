import InvoiceOps.Review.Service

/-! Several reviewers on one case. A command reads the committed row, validates, updates the row on the
condition that its version is the one it has read, adds its event and commits. From the update to the
end of its transaction it holds the row; another update of the row waits for it. -/

namespace InvoiceOps

open Calendar HashChain StateMachine

/-- Where a session is in its command; from the update on with the new row, then with the event. -/
inductive Phase
  | idle
  | validated (read : ReviewCase) (command : ReviewCommand) (t : Transition)
  | updated (read : ReviewCase) (command : ReviewCommand) (t : Transition) (now : DateTime) (row : ReviewCase)
  | inserted (command : ReviewCommand) (row : ReviewCase) (event : ReviewEvent)

inductive Answer
  | done (version : ℕ)
  | failed (e : ReviewError)
deriving DecidableEq, Repr

structure Reply where
  session : ℕ
  command : ReviewCommand
  answer : Answer
deriving DecidableEq, Repr

/-- The committed rows of the case, who holds the row, the sessions, and the replies given so far. -/
structure World where
  case : ReviewCase
  events : List ReviewEvent
  holder : Option ℕ
  sessions : ℕ → Phase
  replies : List Reply

inductive ReviewStep
  | read (i : ℕ) (command : ReviewCommand)
  | update (i : ℕ) (now : DateTime)
  | insert (i : ℕ)
  | commit (i : ℕ)
  | abort (i : ℕ)

def World.enter (w : World) (i : ℕ) (phase : Phase) : World :=
  { w with sessions := Function.update w.sessions i phase }

/-- Rollback: the session holds nothing any more. -/
def World.rollback (w : World) (i : ℕ) : World :=
  { w.enter i .idle with holder := if w.holder = some i then none else w.holder }

def World.reply (w : World) (i : ℕ) (command : ReviewCommand) (answer : Answer) : World :=
  { w with replies := w.replies ++ [⟨i, command, answer⟩] }

def World.refuse (w : World) (i : ℕ) (command : ReviewCommand) (e : ReviewError) : World :=
  (w.rollback i).reply i command (.failed e)

def World.next (B : Builtins) (w : World) : ReviewStep → Option World
  | .read i command =>
    match w.sessions i with
    | .idle =>
      match command.transition w.case with
      | .error e => some (w.refuse i command (.transition e))
      | .ok t => some (w.enter i (.validated w.case command t))
    | _ => none
  | .update i now =>
    match w.sessions i with
    | .validated read command t =>
      if w.holder ≠ none then none
      else if w.case.version = read.version then
        some { w.enter i (.updated read command t now (w.case.update t now)) with holder := some i }
      else some (w.refuse i command (.transition staleVersion))
    | _ => none
  | .insert i =>
    match w.sessions i with
    | .updated read command t now row =>
      match eventAt w.events read.id read.version with
      | none => some (w.refuse i command .historyIncomplete)
      | some previous => some (w.enter i (.inserted command row (transitionEvent B read t command now previous)))
    | _ => none
  | .commit i =>
    match w.sessions i with
    | .inserted command row event =>
      if (eventAt w.events event.reviewCaseId event.sequenceNumber).isSome then
        some (w.refuse i command (.transition staleVersion))
      else some { (w.rollback i).reply i command (.done w.case.version) with
        case := row
        events := w.events ++ [event] }
    | _ => none
  | .abort i =>
    match w.sessions i with
    | .idle => none
    | _ => some (w.rollback i)

/-- A case just opened, with no session active. -/
def World.opened (B : Builtins) (run : MatchRun) (risk : Option RiskAssessment) (caseId : Uuid)
    (now : DateTime) : World where
  case := openedCase run caseId now
  events := [openedEvent B run risk caseId now]
  holder := none
  sessions := fun _ => .idle
  replies := []

/-- SQL's `trim` removes blanks only. -/
def sqlTrim (s : String) : List Char := Text.stripBy (· = ' ') s.toList

/-- `ck_review_case_state_shape`. -/
inductive StateShape (case : ReviewCase) : Prop
  | opened : case.status = .opened → case.assignedReviewerId = none → case.claimedAt = none →
      case.resolvedAt = none → case.resolution = none → case.resolutionReason = none → StateShape case
  | claimed : case.status = .claimed → case.assignedReviewerId.isSome → case.claimedAt.isSome →
      case.resolvedAt = none → case.resolution = none → case.resolutionReason = none → StateShape case
  | resolved {reason : String} : case.status = .resolved → case.assignedReviewerId.isSome →
      case.claimedAt.isSome → case.resolvedAt.isSome → case.resolution.isSome →
      case.resolutionReason = some reason → 0 < (sqlTrim reason).length → StateShape case

theorem sqlTrim_strip {reason : String} (h : Text.strip reason ≠ "") :
    0 < (sqlTrim (Text.strip reason)).length := by
  have hne : Text.stripBy Text.isSpace reason.toList ≠ [] := by
    intro hnil
    exact h (by rw [Text.strip, hnil, String.ofList_nil])
  have hblank : ∀ c : Char, decide (c = ' ') = true → Text.isSpace c = true := by
    intro c hc
    rw [of_decide_eq_true hc]
    rfl
  have hkept := Text.stripBy_stripBy_ne_nil hblank hne
  rw [sqlTrim, Text.strip, String.toList_ofList]
  exact List.length_pos_iff.2 hkept

theorem StateShape.update {case : ReviewCase} {command : ReviewCommand} {t : Transition} (now : DateTime)
    (h : StateShape case) (ht : command.transition case = .ok t) : StateShape (case.update t now) := by
  obtain ⟨-, haccepted⟩ := ReviewAction.transition_ok.1 ht
  generalize command.action = action at haccepted
  cases haccepted with
  | claim hs =>
    cases h with
    | opened _ _ _ hresolved hres hreason => exact .claimed rfl rfl rfl hresolved rfl rfl
    | claimed hs' => cases hs.symm.trans hs'
    | resolved hs' => cases hs.symm.trans hs'
  | release hs ha =>
    cases h with
    | opened hs' => cases hs.symm.trans hs'
    | claimed _ _ _ hresolved => exact .opened rfl rfl rfl hresolved rfl rfl
    | resolved hs' => cases hs.symm.trans hs'
  | comment hs =>
    cases h with
    | opened h1 h2 h3 h4 h5 h6 => exact .opened h1 h2 h3 h4 h5 h6
    | claimed h1 h2 h3 h4 h5 h6 => exact .claimed h1 h2 h3 h4 h5 h6
    | resolved hs' => exact absurd hs' hs
  | resolve hs ha hr =>
    cases h with
    | opened hs' => cases hs.symm.trans hs'
    | claimed _ _ hclaimed => exact .resolved rfl rfl hclaimed rfl rfl rfl (sqlTrim_strip hr)
    | resolved hs' => cases hs.symm.trans hs'

/-- The steps of the machine, with what was true before them. -/
inductive Moves (B : Builtins) (w : World) : ReviewStep → World → Prop
  | refuse {e : ReviewStep} (i : ℕ) (command : ReviewCommand) (err : ReviewError) :
      Moves B w e (w.refuse i command err)
  | read {i : ℕ} {command : ReviewCommand} {t : Transition} : w.sessions i = .idle →
      command.transition w.case = .ok t → Moves B w (.read i command) (w.enter i (.validated w.case command t))
  | update {i : ℕ} {now : DateTime} {read : ReviewCase} {command : ReviewCommand} {t : Transition} :
      w.sessions i = .validated read command t → w.holder = none → w.case.version = read.version →
      Moves B w (.update i now)
        { w.enter i (.updated read command t now (w.case.update t now)) with holder := some i }
  | insert {i : ℕ} {read : ReviewCase} {command : ReviewCommand} {t : Transition} {now : DateTime}
      {row : ReviewCase} {previous : ReviewEvent} : w.sessions i = .updated read command t now row →
      eventAt w.events read.id read.version = some previous →
      Moves B w (.insert i) (w.enter i (.inserted command row (transitionEvent B read t command now previous)))
  | commit {i : ℕ} {command : ReviewCommand} {row : ReviewCase} {event : ReviewEvent} :
      w.sessions i = .inserted command row event →
      Moves B w (.commit i) { (w.rollback i).reply i command (.done w.case.version) with
        case := row
        events := w.events ++ [event] }
  | abort {i : ℕ} : Moves B w (.abort i) (w.rollback i)

theorem moves_of_next {B : Builtins} {w w' : World} {e : ReviewStep} (h : w.next B e = some w') :
    Moves B w e w' := by
  cases e with
  | read i command =>
    cases hs : w.sessions i with
    | idle =>
      cases ht : command.transition w.case with
      | error e =>
        simp only [World.next, hs, ht, Option.some.injEq] at h
        exact h ▸ .refuse i command _
      | ok t =>
        simp only [World.next, hs, ht, Option.some.injEq] at h
        exact h ▸ .read hs ht
    | validated | updated | inserted => simp [World.next, hs] at h
  | update i now =>
    cases hs : w.sessions i with
    | validated read command t =>
      by_cases hholder : w.holder = none
      · by_cases hv : w.case.version = read.version
        · simp only [World.next, hs, hholder, hv, ne_eq, not_true_eq_false, if_false, if_true, Option.some.injEq] at h
          exact h ▸ .update hs hholder hv
        · simp only [World.next, hs, hholder, hv, ne_eq, not_true_eq_false, if_false, Option.some.injEq] at h
          exact h ▸ .refuse i command _
      · simp [World.next, hs, hholder] at h
    | idle | updated | inserted => simp [World.next, hs] at h
  | insert i =>
    cases hs : w.sessions i with
    | updated read command t now row =>
      cases hprevious : eventAt w.events read.id read.version with
      | none =>
        simp only [World.next, hs, hprevious, Option.some.injEq] at h
        exact h ▸ .refuse i command _
      | some previous =>
        simp only [World.next, hs, hprevious, Option.some.injEq] at h
        exact h ▸ .insert hs hprevious
    | idle | validated | inserted => simp [World.next, hs] at h
  | commit i =>
    cases hs : w.sessions i with
    | inserted command row event =>
      simp only [World.next, hs] at h
      split_ifs at h
      · exact Option.some.inj h ▸ .refuse i command _
      · exact Option.some.inj h ▸ .commit hs
    | idle | validated | updated => simp [World.next, hs] at h
  | abort i =>
    cases hs : w.sessions i with
    | idle => simp [World.next, hs] at h
    | validated | updated | inserted =>
      simp only [World.next, hs, Option.some.injEq] at h
      exact h ▸ .abort

/-- What holds of a session. A row read with the current version is the current row; a session that has
updated holds the row, so the row is still the one it has read. -/
def SessionOk (B : Builtins) (case : ReviewCase) (events : List ReviewEvent) (holder : Option ℕ) (i : ℕ) :
    Phase → Prop
  | .idle => True
  | .validated read command t => command.transition read = .ok t ∧ read.version ≤ case.version ∧
      (read.version = case.version → read = case)
  | .updated read command t now row => holder = some i ∧ read = case ∧ command.transition read = .ok t ∧
      row = read.update t now
  | .inserted command row event => holder = some i ∧ ∃ t now previous, command.transition case = .ok t ∧
      row = case.update t now ∧ eventAt events case.id case.version = some previous ∧
      event = transitionEvent B case t command now previous

/-- The versions on which a command succeeded. -/
def doneVersions (replies : List Reply) : List ℕ :=
  replies.filterMap fun r => match r.answer with
    | .done version => some version
    | .failed _ => none

structure Consistent (B : Builtins) (w : World) : Prop where
  shape : StateShape w.case
  log : CaseLog B w.case w.events
  owned : ∀ e ∈ w.events, e.reviewCaseId = w.case.id
  sessions : ∀ i, SessionOk B w.case w.events w.holder i (w.sessions i)
  once : (doneVersions w.replies).Nodup
  past : ∀ v ∈ doneVersions w.replies, v < w.case.version

section

variable {B : Builtins} {w w' : World} {i : ℕ} {command : ReviewCommand}

theorem consistent_opened (run : MatchRun) (risk : Option RiskAssessment) (caseId : Uuid) (now : DateTime) :
    Consistent B (World.opened B run risk caseId now) where
  shape := .opened rfl rfl rfl rfl rfl rfl
  log := caseLog_opened run risk caseId
  owned := by
    intro e he
    rw [List.mem_singleton.1 he]
    rfl
  sessions := fun _ => trivial
  once := List.nodup_nil
  past := by simp [World.opened, doneVersions]

@[simp] theorem doneVersions_done (replies : List Reply) (version : ℕ) :
    doneVersions (replies ++ [⟨i, command, .done version⟩]) = doneVersions replies ++ [version] := by
  simp [doneVersions]

@[simp] theorem doneVersions_failed (replies : List Reply) (e : ReviewError) :
    doneVersions (replies ++ [⟨i, command, .failed e⟩]) = doneVersions replies := by
  simp [doneVersions]

/-- A session that enters a phase it may be in leaves the others as they are. -/
theorem Consistent.enter (h : Consistent B w) {phase : Phase} (hphase : SessionOk B w.case w.events w.holder i phase) :
    Consistent B (w.enter i phase) := by
  refine ⟨h.shape, h.log, h.owned, fun j => ?_, h.once, h.past⟩
  by_cases hj : j = i
  · subst hj
    simpa [World.enter] using hphase
  · simpa [World.enter, hj] using h.sessions j

/-- The end of a transaction concerns no other session: nobody else holds the row. -/
theorem sessionOk_release {j : ℕ} (hj : j ≠ i) {phase : Phase} (h : SessionOk B w.case w.events w.holder j phase) :
    SessionOk B w.case w.events (w.rollback i).holder j phase := by
  have hholder : w.holder = some j → (w.rollback i).holder = some j := by
    intro hw
    have : some j ≠ some i := fun heq => hj (Option.some.inj heq)
    simp [World.rollback, hw, this]
  cases phase with
  | idle => trivial
  | validated => exact h
  | updated => exact ⟨hholder h.1, h.2⟩
  | inserted => exact ⟨hholder h.1, h.2⟩

theorem Consistent.rollback (h : Consistent B w) : Consistent B (w.rollback i) := by
  refine ⟨h.shape, h.log, h.owned, fun j => ?_, h.once, h.past⟩
  by_cases hj : j = i
  · subst hj
    simp [World.rollback, World.enter, SessionOk]
  · have hsame : (w.rollback i).sessions j = w.sessions j := by simp [World.rollback, World.enter, hj]
    rw [hsame]
    exact sessionOk_release hj (h.sessions j)

theorem Consistent.refuse (h : Consistent B w) (e : ReviewError) : Consistent B (w.refuse i command e) := by
  have hroll : Consistent B (w.rollback i) := h.rollback
  refine ⟨hroll.shape, hroll.log, hroll.owned, hroll.sessions, ?_, ?_⟩
  · simpa [World.refuse, World.reply] using hroll.once
  · simpa [World.refuse, World.reply] using hroll.past

theorem Consistent.update {read : ReviewCase} {t : Transition} {now : DateTime} (h : Consistent B w)
    (hs : w.sessions i = .validated read command t) (hholder : w.holder = none)
    (hv : w.case.version = read.version) :
    Consistent B { w.enter i (.updated read command t now (w.case.update t now)) with holder := some i } := by
  have hvalidated : SessionOk B w.case w.events w.holder i (.validated read command t) := hs ▸ h.sessions i
  obtain ⟨ht, -, hread⟩ := hvalidated
  have hread : read = w.case := hread hv.symm
  refine ⟨h.shape, h.log, h.owned, fun j => ?_, h.once, h.past⟩
  by_cases hj : j = i
  · subst hj
    simp only [World.enter, Function.update_self]
    exact ⟨rfl, hread, ht, by rw [hread]⟩
  · simp only [World.enter, Function.update_of_ne hj]
    have hsession := h.sessions j
    cases hphase : w.sessions j with
    | idle => trivial
    | validated =>
      rw [hphase] at hsession
      exact hsession
    | updated =>
      rw [hphase] at hsession
      cases hholder.symm.trans hsession.1
    | inserted =>
      rw [hphase] at hsession
      cases hholder.symm.trans hsession.1

theorem Consistent.commit {row : ReviewCase} {event : ReviewEvent} (h : Consistent B w)
    (hs : w.sessions i = .inserted command row event) :
    Consistent B { (w.rollback i).reply i command (.done w.case.version) with
      case := row
      events := w.events ++ [event] } := by
  have hinserted : SessionOk B w.case w.events w.holder i (.inserted command row event) := hs ▸ h.sessions i
  obtain ⟨hholder, t, now, previous, ht, rfl, hprevious, rfl⟩ := hinserted
  have hfilter : w.events.filter (·.reviewCaseId = w.case.id) = w.events := by
    simpa [List.filter_eq_self] using h.owned
  rw [eventAt_eq, hfilter] at hprevious
  refine ⟨h.shape.update now ht, h.log.snoc ht hprevious, ?_, fun j => ?_, ?_, ?_⟩
  · intro e he
    rcases List.mem_append.1 he with he | he
    · exact h.owned e he
    · rw [List.mem_singleton.1 he]
      rfl
  · by_cases hj : j = i
    · subst hj
      simp [World.rollback, World.reply, World.enter, SessionOk]
    · -- whoever has read the old row has read an older version now
      have hsession := h.sessions j
      simp only [World.rollback, World.reply, World.enter, Function.update_of_ne hj]
      cases hphase : w.sessions j with
      | idle => trivial
      | validated read =>
        rw [hphase] at hsession
        obtain ⟨hread, hle, -⟩ := hsession
        refine ⟨hread, hle.trans (Nat.le_succ _), fun heq => ?_⟩
        have heq : read.version = w.case.version + 1 := heq
        omega
      | updated =>
        rw [hphase] at hsession
        exact absurd (Option.some.inj (hsession.1.symm.trans hholder)) hj
      | inserted =>
        rw [hphase] at hsession
        exact absurd (Option.some.inj (hsession.1.symm.trans hholder)) hj
  · simp only [World.reply, doneVersions_done]
    refine List.nodup_append.2 ⟨h.once, List.nodup_singleton _, fun a ha b hb hab => ?_⟩
    obtain rfl := List.mem_singleton.1 hb
    exact absurd (h.past a ha) (by omega)
  · simp only [World.reply, doneVersions_done, List.forall_mem_append, List.forall_mem_singleton]
    exact ⟨fun v hv => (h.past v hv).trans (Nat.lt_succ_self _), Nat.lt_succ_self _⟩

theorem Consistent.step {e : ReviewStep} (h : Consistent B w) (hnext : w.next B e = some w') :
    Consistent B w' := by
  cases moves_of_next hnext with
  | refuse i command err => exact h.refuse err
  | read hs ht => exact h.enter ⟨ht, le_rfl, fun _ => rfl⟩
  | update hs hholder hv => exact h.update hs hholder hv
  | @insert i read command t now row previous hs hprevious =>
    have hupdated : SessionOk B w.case w.events w.holder i (.updated read command t now row) :=
      hs ▸ h.sessions i
    obtain ⟨hholder, rfl, ht, rfl⟩ := hupdated
    exact h.enter ⟨hholder, t, now, previous, ht, rfl, hprevious, rfl⟩
  | commit hs => exact h.commit hs
  | abort => exact h.rollback

/-- The step commits a command that is accepted on the current row. -/
structure Succeeds (w : World) (i : ℕ) (command : ReviewCommand) (t : Transition) (now : DateTime)
    (event : ReviewEvent) (w' : World) : Prop where
  accepted : command.transition w.case = .ok t
  case : w'.case = w.case.update t now
  events : w'.events = w.events ++ [event]
  replies : w'.replies = w.replies ++ [⟨i, command, .done w.case.version⟩]

/-- A step either is a successful commit or leaves the rows of the case alone. -/
theorem Consistent.succeeds_or_unchanged {e : ReviewStep} (h : Consistent B w) (hnext : w.next B e = some w') :
    (w'.case = w.case ∧ w'.events = w.events ∧ doneVersions w'.replies = doneVersions w.replies) ∨
      ∃ i command t now event, e = .commit i ∧ Succeeds w i command t now event w' := by
  cases moves_of_next hnext with
  | refuse i command err => exact .inl ⟨rfl, rfl, doneVersions_failed w.replies err⟩
  | read hs ht => exact .inl ⟨rfl, rfl, rfl⟩
  | update hs hholder hv => exact .inl ⟨rfl, rfl, rfl⟩
  | insert hs hprevious => exact .inl ⟨rfl, rfl, rfl⟩
  | @commit i command row event hs =>
    have hinserted : SessionOk B w.case w.events w.holder i (.inserted command row event) := hs ▸ h.sessions i
    obtain ⟨-, t, now, previous, ht, rfl, -, rfl⟩ := hinserted
    exact .inr ⟨i, command, t, now, _, rfl, ht, rfl, rfl, rfl⟩
  | abort => exact .inl ⟨rfl, rfl, rfl⟩

theorem Succeeds.not_resolved {t : Transition} {now : DateTime} {event : ReviewEvent}
    (h : Succeeds w i command t now event w') : w.case.status ≠ .resolved := by
  obtain ⟨-, haccepted⟩ := ReviewAction.transition_ok.1 h.accepted
  intro hresolved
  have hstate : w.case.state.status = .resolved := hresolved
  generalize command.action = action at haccepted
  cases haccepted with
  | claim hs => cases hstate.symm.trans hs
  | release hs => cases hstate.symm.trans hs
  | comment hs => exact hs hstate
  | resolve hs => cases hstate.symm.trans hs

theorem Succeeds.assignee {t : Transition} {now : DateTime} {event : ReviewEvent}
    (h : Succeeds w i command t now event w') (hfor : command.action.ForAssignee) :
    w.case.status = .claimed ∧ w.case.assignedReviewerId = some command.actorId := by
  obtain ⟨-, haccepted⟩ := ReviewAction.transition_ok.1 h.accepted
  generalize command.action = action at haccepted hfor
  cases haccepted with
  | claim => cases hfor
  | release hs ha => exact ⟨hs, ha⟩
  | comment => cases hfor
  | resolve hs ha => exact ⟨hs, ha⟩

/-- A resolved case stays as it is. -/
theorem Consistent.frozen {steps : List ReviewStep} (h : Consistent B w) (hrun : Steps (World.next B) w steps w')
    (hresolved : w.case.status = .resolved) : w'.case = w.case ∧ w'.events = w.events := by
  induction hrun with
  | nil => exact ⟨rfl, rfl⟩
  | @snoc evs mid e last hmid hnext ih =>
    obtain ⟨hcase, hevents⟩ := ih
    have hc : Consistent B mid := hmid.invariant (fun _ _ _ hi hn => hi.step hn) h
    rcases hc.succeeds_or_unchanged hnext with ⟨h1, h2, -⟩ | ⟨j, cmd, t, now, event, -, hs⟩
    · exact ⟨h1.trans hcase, h2.trans hevents⟩
    · exact absurd (hcase ▸ hresolved) hs.not_resolved

end

/-- In every state that any interleaving of commands on a case can reach: the row has the shape the table
asks for; no two commands succeeded on the same version; a step changes the row and the events only when
it commits a command accepted on that very row, and a release or resolution is then the assignee's; a
command that is refused changes nothing; and a resolved case never changes again. -/
theorem review_interleaving_safe (B : Builtins) (run : MatchRun) (risk : Option RiskAssessment) (caseId : Uuid)
    (now : DateTime) (steps : List ReviewStep) (w : World)
    (hrun : Steps (World.next B) (World.opened B run risk caseId now) steps w) :
    StateShape w.case ∧ (doneVersions w.replies).Nodup ∧
    (∀ e w', w.next B e = some w' → (w'.case = w.case ∧ w'.events = w.events ∧
        doneVersions w'.replies = doneVersions w.replies) ∨
      ∃ i command t now event, e = .commit i ∧ Succeeds w i command t now event w' ∧
        (command.action.ForAssignee →
          w.case.status = .claimed ∧ w.case.assignedReviewerId = some command.actorId)) ∧
    (∀ e w' i command err, w.next B e = some w' → w'.replies = w.replies ++ [⟨i, command, .failed err⟩] →
      w'.case = w.case ∧ w'.events = w.events) ∧
    (w.case.status = .resolved → ∀ steps' w', Steps (World.next B) w steps' w' →
      w'.case = w.case ∧ w'.events = w.events) := by
  have h : Consistent B w := hrun.invariant (fun _ _ _ hi hn => hi.step hn) (consistent_opened run risk caseId now)
  refine ⟨h.shape, h.once, ?_, ?_, fun hresolved steps' w' hrun' => h.frozen hrun' hresolved⟩
  · intro e w' hnext
    refine (h.succeeds_or_unchanged hnext).imp_right fun hsucceeds => ?_
    obtain ⟨i, command, t, now, event, he, hs⟩ := hsucceeds
    exact ⟨i, command, t, now, event, he, hs, hs.assignee⟩
  · intro e w' i command err hnext hreply
    rcases h.succeeds_or_unchanged hnext with ⟨hcase, hevents, -⟩ | ⟨j, cmd, t, now, event, -, hs⟩
    · exact ⟨hcase, hevents⟩
    · have hlast := List.append_cancel_left (hs.replies.symm.trans hreply)
      cases hlast

/-- The audit of the case succeeds in every state of every interleaving too. -/
theorem audit_of_interleaving {B : Builtins} {run : MatchRun} {risk : Option RiskAssessment} {caseId : Uuid}
    {now : DateTime} {steps : List ReviewStep} {w : World}
    (hrun : Steps (World.next B) (World.opened B run risk caseId now) steps w) :
    (verifyAudit B w.case w.events).errors = [] :=
  (hrun.invariant (fun _ _ _ hi hn => hi.step hn) (consistent_opened run risk caseId now)).log.verifyAudit.1

/-- Two reviewers claim the same case: both read version 1, the second one updates after the first has
committed. -/
def racingClaims : List ReviewStep :=
  [.read 0 ⟨.claim, "ann", 1, []⟩, .read 1 ⟨.claim, "bob", 1, []⟩, .update 0 .first, .insert 0, .commit 0,
    .update 1 .first]

theorem review_interleaving_safe_racingClaims : ∃ w : World,
    Steps (World.next byteChars) (World.opened byteChars reviewedRun none (Uuid.ofNat 1) .first) racingClaims w ∧
    w.replies = [⟨0, ⟨.claim, "ann", 1, []⟩, .done 1⟩,
      ⟨1, ⟨.claim, "bob", 1, []⟩, .failed (.transition staleVersion)⟩] ∧ StateShape w.case := by
  have hexec : ∃ w, exec (World.next byteChars)
      (World.opened byteChars reviewedRun none (Uuid.ofNat 1) .first) racingClaims = some w ∧
      w.replies = [⟨0, ⟨.claim, "ann", 1, []⟩, .done 1⟩,
        ⟨1, ⟨.claim, "bob", 1, []⟩, .failed (.transition staleVersion)⟩] := ⟨_, rfl, rfl⟩
  obtain ⟨w, hw, hreplies⟩ := hexec
  exact ⟨w, Steps.of_exec hw, hreplies,
    (review_interleaving_safe byteChars reviewedRun none (Uuid.ofNat 1) .first racingClaims w (Steps.of_exec hw)).1⟩

end InvoiceOps
