import InvoiceOps.Web.Sessions

/-! Where a session comes from. In every state one task renews a session, one callback has a login, and a session is for the
principal the API has answered for its login. -/

namespace InvoiceOps

open StateMachine Relation

namespace LoginWorld

theorem update_eq_some {κ α : Type*} [DecidableEq κ] {f : κ → Option α} {k k' : κ} {o : Option α} {a : α}
    (h : Function.update f k o k' = some a) : k' = k ∧ o = some a ∨ k' ≠ k ∧ f k' = some a := by
  by_cases hk : k' = k
  · subst hk
    rw [Function.update_self] at h
    exact .inl ⟨rfl, h⟩
  · rw [Function.update_of_ne hk] at h
    exact .inr ⟨hk, h⟩

theorem task_update {tasks : ℕ → Option Refresh} {k k' : ℕ} {id id' : String} {phase phase' : RefreshPhase}
    (h : Function.update tasks k (some ⟨id, phase⟩) k' = some ⟨id', phase'⟩) :
    k' = k ∧ id' = id ∧ phase' = phase ∨ k' ≠ k ∧ tasks k' = some ⟨id', phase'⟩ := by
  refine (update_eq_some h).imp_left ?_
  rintro ⟨rfl, ht⟩
  obtain ⟨rfl, rfl⟩ := Refresh.mk.inj (Option.some.inj ht)
  exact ⟨rfl, rfl, rfl⟩

/-- Each entry of the map is a task of its session, and a task that is under way has its entry. -/
structure FlightOk (refreshes : String → Option ℕ) (tasks : ℕ → Option Refresh) (nextTask : ℕ) : Prop where
  flight : ∀ k id phase, tasks k = some ⟨id, phase⟩ → phase.active = true → refreshes id = some k
  mapped : ∀ id k, refreshes id = some k → ∃ phase, tasks k = some ⟨id, phase⟩
  bound : ∀ k t, tasks k = some t → k < nextTask

section

variable {refreshes : String → Option ℕ} {tasks : ℕ → Option Refresh} {nextTask k : ℕ} {id : String}
  {phase phase' : RefreshPhase}

theorem FlightOk.setPhase (h : FlightOk refreshes tasks nextTask) (htask : tasks k = some ⟨id, phase⟩)
    (hactive : phase.active = true) : FlightOk refreshes (Function.update tasks k (some ⟨id, phase'⟩)) nextTask := by
  refine ⟨fun k' id' p hk' hp => ?_, fun id' k' hmap => ?_, fun k' t hk' => ?_⟩
  · rcases task_update hk' with ⟨rfl, rfl, -⟩ | ⟨-, hold⟩
    · exact h.flight k' id' phase htask hactive
    · exact h.flight k' id' p hold hp
  · obtain ⟨p, hp⟩ := h.mapped id' k' hmap
    by_cases hk : k' = k
    · subst hk
      obtain ⟨rfl, rfl⟩ := Refresh.mk.inj (Option.some.inj (hp.symm.trans htask))
      exact ⟨phase', Function.update_self ..⟩
    · exact ⟨p, by rw [Function.update_of_ne hk, hp]⟩
  · rcases update_eq_some hk' with ⟨rfl, -⟩ | ⟨-, hold⟩
    · exact h.bound k' _ htask
    · exact h.bound k' t hold

theorem FlightOk.start (h : FlightOk refreshes tasks nextTask) (hfree : refreshes id = none) :
    FlightOk (Function.update refreshes id (some nextTask)) (Function.update tasks nextTask (some ⟨id, .loading⟩))
      (nextTask + 1) := by
  refine ⟨fun k' id' p hk' hp => ?_, fun id' k' hmap => ?_, fun k' t hk' => ?_⟩
  · rcases task_update hk' with ⟨rfl, rfl, -⟩ | ⟨-, hold⟩
    · exact Function.update_self ..
    · have hmap := h.flight k' id' p hold hp
      have hne : id' ≠ id := by
        rintro rfl
        rw [hfree] at hmap
        cases hmap
      rw [Function.update_of_ne hne, hmap]
  · rcases update_eq_some hmap with ⟨rfl, hnew⟩ | ⟨-, hold⟩
    · obtain rfl := Option.some.inj hnew
      exact ⟨.loading, Function.update_self ..⟩
    · obtain ⟨p, hp⟩ := h.mapped id' k' hold
      exact ⟨p, by rw [Function.update_of_ne (h.bound k' _ hp).ne, hp]⟩
  · rcases update_eq_some hk' with ⟨rfl, -⟩ | ⟨-, hold⟩
    · exact Nat.lt_succ_self _
    · exact (h.bound k' t hold).trans (Nat.lt_succ_self _)

/-- The entry that goes belongs to a task that is over. -/
theorem FlightOk.free {id' : String} {session : Option AppSession} (h : FlightOk refreshes tasks nextTask)
    (hmap : refreshes id = some k) (htask : tasks k = some ⟨id', .resolved session⟩) :
    FlightOk (Function.update refreshes id none) tasks nextTask := by
  refine ⟨fun k' id'' p hk' hp => ?_, fun id'' k' hmap' => ?_, h.bound⟩
  · have hmap' := h.flight k' id'' p hk' hp
    have hne : id'' ≠ id := by
      rintro rfl
      obtain rfl : k = k' := Option.some.inj (hmap.symm.trans hmap')
      obtain ⟨rfl, rfl⟩ := Refresh.mk.inj (Option.some.inj (hk'.symm.trans htask))
      cases hp
    rw [Function.update_of_ne hne, hmap']
  · rcases update_eq_some hmap' with ⟨-, hnew⟩ | ⟨-, hold⟩
    · cases hnew
    · exact h.mapped id'' k' hold

end

/-- The tables that the invariant of the tasks is about. -/
def Flights (w : LoginWorld) : Prop := FlightOk w.refreshes w.tasks w.nextTask

variable {w w' : LoginWorld}

/-- Two tasks of one session are not under way together. -/
theorem Flights.unique (h : w.Flights) {k k' : ℕ} {id : String} {phase phase' : RefreshPhase}
    (htask : w.tasks k = some ⟨id, phase⟩) (htask' : w.tasks k' = some ⟨id, phase'⟩) (hactive : phase.active = true)
    (hactive' : phase'.active = true) : k = k' :=
  Option.some.inj ((FlightOk.flight h k id phase htask hactive).symm.trans
    (FlightOk.flight h k' id phase' htask' hactive'))

theorem Takes.flights (h : w.Takes w') (hw : w.Flights) : w'.Flights := by
  cases h with
  | asks => exact hw
  | starts hfree => exact FlightOk.start hw hfree
  | frees hmap htask => exact FlightOk.free hw hmap htask
  | reads htask => exact FlightOk.setPhase hw htask rfl
  | moves htask h => exact FlightOk.setPhase hw htask h.active
  | sends htask => exact FlightOk.setPhase hw htask rfl
  | rotates htask => exact FlightOk.setPhase hw htask rfl
  | fails htask => exact FlightOk.setPhase hw htask rfl
  | saves htask => exact FlightOk.setPhase hw htask rfl
  | remembers =>
    unfold saveLoginState
    split
    · exact hw
    · exact hw
  | consumes => exact hw
  | finishes => exact hw
  | issues => exact hw
  | identifies => exact hw
  | creates => exact hw
  | logsOut => exact hw
  | expires => exact hw
  | expiresLogin => exact hw

/-- A callback past the login state it has taken. -/
def underWay (callbacks : ℕ → Option Callback) (c : ℕ) (state : String) : Prop :=
  ∃ phase, callbacks c = some ⟨state, phase⟩ ∧ phase ≠ .finished

/-- A login is either open, or taken by one callback, or the origin of one session. -/
structure Logins (w : LoginWorld) : Prop where
  opened : ∀ state login, w.logins state = some login → state ∈ w.log.saved ∧ state ∉ w.log.created.map Prod.snd
  taken : ∀ c state, underWay w.callbacks c state →
    state ∈ w.log.saved ∧ state ∉ w.log.created.map Prod.snd ∧ w.logins state = none
  single : ∀ c c' state, underWay w.callbacks c state → underWay w.callbacks c' state → c = c'
  answered : ∀ c state tokens principal, w.callbacks c = some ⟨state, .creating tokens principal⟩ →
    (state, principal) ∈ w.log.answers
  granted : ∀ c state phase, w.callbacks c = some ⟨state, phase⟩ → ∀ token ∈ phase.tokens, (token, state) ∈ w.log.issued
  saved : w.log.created.map Prod.snd ⊆ w.log.saved
  ids : (w.log.created.map Prod.fst).Nodup
  states : (w.log.created.map Prod.snd).Nodup

theorem callback_update {callbacks : ℕ → Option Callback} {c c' : ℕ} {state state' : String} {phase phase' : CallbackPhase}
    (h : Function.update callbacks c (some ⟨state, phase⟩) c' = some ⟨state', phase'⟩) :
    c' = c ∧ state' = state ∧ phase' = phase ∨ c' ≠ c ∧ callbacks c' = some ⟨state', phase'⟩ := by
  refine (update_eq_some h).imp_left ?_
  rintro ⟨rfl, hc⟩
  obtain ⟨rfl, rfl⟩ := Callback.mk.inj (Option.some.inj hc)
  exact ⟨rfl, rfl, rfl⟩

theorem underWay_update {callbacks : ℕ → Option Callback} {c c' : ℕ} {state state' : String} {phase : CallbackPhase}
    (h : underWay (Function.update callbacks c (some ⟨state, phase⟩)) c' state') :
    c' = c ∧ state' = state ∧ phase ≠ .finished ∨ c' ≠ c ∧ underWay callbacks c' state' := by
  obtain ⟨phase', hc', hphase⟩ := h
  rcases callback_update hc' with ⟨rfl, rfl, rfl⟩ | ⟨hc, hold⟩
  · exact .inl ⟨rfl, rfl, hphase⟩
  · exact .inr ⟨hc, phase', hold, hphase⟩

/-- A callback that stays under way, or is finished, keeps the logins. -/
theorem Logins.setCallback (h : w.Logins) {c : ℕ} {state : String} {phase : CallbackPhase}
    (hunder : phase ≠ .finished → underWay w.callbacks c state)
    (hanswered : ∀ tokens principal, phase = .creating tokens principal → (state, principal) ∈ w.log.answers)
    (hgranted : ∀ token ∈ phase.tokens, (token, state) ∈ w.log.issued) :
    (w.setCallback c state phase).Logins := by
  have hold {c' : ℕ} {state' : String}
      (hc' : underWay (Function.update w.callbacks c (some ⟨state, phase⟩)) c' state') : underWay w.callbacks c' state' := by
    rcases underWay_update hc' with ⟨rfl, rfl, hphase⟩ | ⟨-, hc'⟩
    · exact hunder hphase
    · exact hc'
  refine ⟨h.opened, fun c' state' hc' => h.taken c' state' (hold hc'), fun c' c'' state' hc' hc'' =>
    h.single c' c'' state' (hold hc') (hold hc''), fun c' state' tokens principal hc' => ?_,
    fun c' state' phase' hc' => ?_, h.saved, h.ids, h.states⟩
  · rcases callback_update hc' with ⟨-, rfl, hphase⟩ | ⟨-, hc'⟩
    · exact hanswered tokens principal hphase.symm
    · exact h.answered c' state' tokens principal hc'
  · rcases callback_update hc' with ⟨-, rfl, rfl⟩ | ⟨-, hc'⟩
    · exact hgranted
    · exact h.granted c' state' phase' hc'

theorem Logins.expireLogin (h : w.Logins) (state : String) :
    { w with logins := Function.update w.logins state none }.Logins := by
  have hopen {state' : String} {login : LoginState}
      (h' : Function.update w.logins state none state' = some login) : w.logins state' = some login := by
    rcases update_eq_some h' with ⟨-, hnew⟩ | ⟨-, hold⟩
    · cases hnew
    · exact hold
  refine ⟨fun state' login h' => h.opened state' login (hopen h'), fun c state' hc => ?_, h.single, h.answered,
    h.granted, h.saved, h.ids, h.states⟩
  obtain ⟨hsaved, hcreated, hnone⟩ := h.taken c state' hc
  refine ⟨hsaved, hcreated, Option.eq_none_iff_forall_ne_some.2 fun login h' => ?_⟩
  rw [hopen h'] at hnone
  cases hnone

theorem Logins.remember (h : w.Logins) {state : String} (login : LoginState) (hnew : state ∉ w.log.saved) :
    (w.saveLoginState state login).Logins := by
  unfold saveLoginState
  split
  · exact h
  · refine ⟨fun state' login' h' => ?_, fun c state' hc => ?_, h.single, h.answered, h.granted,
      fun s hs => List.mem_append_left _ (h.saved hs), h.ids, h.states⟩
    · rcases update_eq_some h' with ⟨rfl, -⟩ | ⟨-, hold⟩
      · exact ⟨List.mem_append_right _ (List.mem_singleton_self _), fun hcreated => hnew (h.saved hcreated)⟩
      · obtain ⟨hsaved, hcreated⟩ := h.opened state' login' hold
        exact ⟨List.mem_append_left _ hsaved, hcreated⟩
    · obtain ⟨hsaved, hcreated, hnone⟩ := h.taken c state' hc
      refine ⟨List.mem_append_left _ hsaved, hcreated, ?_⟩
      have hne : state' ≠ state := by
        rintro rfl
        exact hnew hsaved
      exact (Function.update_of_ne hne ..).trans hnone

/-- `GETDEL` gives a login to one callback. -/
theorem Logins.consume (h : w.Logins) {c : ℕ} {state : String} {login : LoginState} (hlogin : w.logins state = some login) :
    ({ w with logins := Function.update w.logins state none }.setCallback c state (.exchanging login)).Logins := by
  obtain ⟨hsaved, hcreated⟩ := h.opened state login hlogin
  have hfree (c' : ℕ) (hc' : underWay w.callbacks c' state) : False := by
    have hnone := (h.taken c' state hc').2.2
    rw [hlogin] at hnone
    cases hnone
  have hw := h.expireLogin state
  refine ⟨hw.opened, fun c' state' hc' => ?_, fun c' c'' state' hc' hc'' => ?_, fun c' state' tokens principal hc' => ?_,
    fun c' state' phase hc' => ?_, h.saved, h.ids, h.states⟩
  · rcases underWay_update hc' with ⟨-, rfl, -⟩ | ⟨-, hc'⟩
    · exact ⟨hsaved, hcreated, Function.update_self ..⟩
    · exact hw.taken c' state' hc'
  · rcases underWay_update hc' with ⟨hc, hstate, -⟩ | ⟨-, hold⟩ <;>
      rcases underWay_update hc'' with ⟨hc₁, hstate₁, -⟩ | ⟨-, hold₁⟩
    · exact hc.trans hc₁.symm
    · exact (hfree c'' (hstate ▸ hold₁)).elim
    · exact (hfree c' (hstate₁ ▸ hold)).elim
    · exact h.single c' c'' state' hold hold₁
  · rcases callback_update hc' with ⟨-, -, hphase⟩ | ⟨-, hc'⟩
    · cases hphase
    · exact h.answered c' state' tokens principal hc'
  · rcases callback_update hc' with ⟨-, -, rfl⟩ | ⟨-, hc'⟩
    · exact fun token htoken => nomatch htoken
    · exact h.granted c' state' phase hc'

theorem Logins.create (h : w.Logins) {c : ℕ} {state id : String} {tokens : TokenReply} {principal : PrincipalRead}
    (session : AppSession) (hcallback : w.callbacks c = some ⟨state, .creating tokens principal⟩)
    (hid : id ∉ w.log.created.map Prod.fst) : (w.create c state id session .saved).Logins := by
  have hunder : underWay w.callbacks c state := ⟨_, hcallback, fun hf => nomatch hf⟩
  obtain ⟨hsaved, hcreated, hnone⟩ := h.taken c state hunder
  have hold {c' : ℕ} {state' : String} (hc' : underWay (w.create c state id session .saved).callbacks c' state') :
      state' ≠ state ∧ underWay w.callbacks c' state' := by
    rcases underWay_update hc' with ⟨-, -, hf⟩ | ⟨hc, hc'⟩
    · exact (hf rfl).elim
    · refine ⟨?_, hc'⟩
      rintro rfl
      exact hc (h.single c' c state' hc' hunder)
  have hfst : (w.log.created ++ [(id, state)]).map Prod.fst = w.log.created.map Prod.fst ++ [id] := List.map_append ..
  have hsnd : (w.log.created ++ [(id, state)]).map Prod.snd = w.log.created.map Prod.snd ++ [state] := List.map_append ..
  refine ⟨fun state' login h' => ?_, fun c' state' hc' => ?_, fun c' c'' state' hc' hc'' => ?_,
    fun c' state' tokens' principal' hc' => ?_, fun c' state' phase hc' => ?_, ?_, ?_, ?_⟩
  · obtain ⟨hsaved', hcreated'⟩ := h.opened state' login h'
    refine ⟨hsaved', ?_⟩
    change state' ∉ (w.log.created ++ [(id, state)]).map Prod.snd
    rw [hsnd, List.mem_append, List.mem_singleton]
    rintro (hold' | rfl)
    · exact hcreated' hold'
    · exact Option.some_ne_none login (h'.symm.trans hnone)
  · obtain ⟨hne, hc'⟩ := hold hc'
    obtain ⟨hsaved', hcreated', hnone'⟩ := h.taken c' state' hc'
    refine ⟨hsaved', ?_, hnone'⟩
    change state' ∉ (w.log.created ++ [(id, state)]).map Prod.snd
    rw [hsnd, List.mem_append, List.mem_singleton]
    exact not_or.2 ⟨hcreated', hne⟩
  · exact h.single c' c'' state' (hold hc').2 (hold hc'').2
  · rcases callback_update hc' with ⟨-, -, hphase⟩ | ⟨-, hc'⟩
    · cases hphase
    · exact h.answered c' state' tokens' principal' hc'
  · rcases callback_update hc' with ⟨-, -, rfl⟩ | ⟨-, hc'⟩
    · exact fun token htoken => nomatch htoken
    · exact h.granted c' state' phase hc'
  · change (w.log.created ++ [(id, state)]).map Prod.snd ⊆ w.log.saved
    rw [hsnd, List.append_subset]
    exact ⟨h.saved, by simpa using hsaved⟩
  · change ((w.log.created ++ [(id, state)]).map Prod.fst).Nodup
    rw [hfst, ← List.concat_eq_append]
    exact h.ids.concat hid
  · change ((w.log.created ++ [(id, state)]).map Prod.snd).Nodup
    rw [hsnd, ← List.concat_eq_append]
    exact h.states.concat hcreated

/-- More refresh tokens may have been issued. -/
theorem Logins.issue (h : w.Logins) (state : String) (tokens : List String) :
    { w with log := { w.log with issued := w.log.issued ++ tokens.map (·, state) } }.Logins :=
  { h with granted := fun c state phase hc token htoken => List.mem_append_left _ (h.granted c state phase hc token htoken) }

theorem Logins.answer (h : w.Logins) (state : String) (principal : PrincipalRead) :
    { w with log := { w.log with answers := w.log.answers ++ [(state, principal)] } }.Logins :=
  { h with answered := fun c state tokens principal hc => List.mem_append_left _ (h.answered c state tokens principal hc) }

theorem Takes.logins (h : w.Takes w') (hw : w.Logins) : w'.Logins := by
  cases h with
  | asks => exact { hw with }
  | starts hfree => exact { hw with }
  | frees hmap htask => exact { hw with }
  | reads htask => exact { hw with }
  | moves htask h => exact { hw with }
  | sends htask => exact { hw with }
  | @rotates k id session refreshed htask => exact { hw.issue (w.loginOf id) refreshed.refreshToken.toList with }
  | fails htask => exact { hw with }
  | saves htask => exact { hw with }
  | remembers hnew => exact hw.remember _ hnew
  | consumes hlogin => exact hw.consume hlogin
  | finishes => exact hw.setCallback (fun hf => (hf rfl).elim) (fun tokens principal hf => nomatch hf) fun token ht => nomatch ht
  | @issues c state login tokens phase hcallback _ hphase =>
    refine (hw.issue state tokens.refreshToken.toList).setCallback (fun _ => ⟨_, hcallback, fun hf => nomatch hf⟩) ?_ ?_
    · rintro tokens' principal rfl
      obtain hf | hf := hphase <;> cases hf
    · intro token htoken
      refine List.mem_append_right _ (List.mem_map_of_mem ?_)
      obtain rfl | rfl := hphase
      · cases htoken
      · exact htoken
  | @identifies c state tokens principal hcallback =>
    refine (hw.answer state principal).setCallback (fun _ => ⟨_, hcallback, fun hf => nomatch hf⟩) ?_
      (hw.granted c state (.identifying tokens) hcallback)
    rintro tokens' principal' hphase
    obtain ⟨-, rfl⟩ := CallbackPhase.creating.inj hphase
    exact List.mem_append_right _ (List.mem_singleton_self _)
  | creates hcallback hid => exact hw.create _ hcallback hid
  | logsOut => exact { hw with }
  | expires => exact { hw with }
  | expiresLogin => exact hw.expireLogin _

/-- A session that is stored, or that a task holds or ends with. -/
def Held (w : LoginWorld) (id : String) (s : AppSession) : Prop :=
  w.sessions id = some s ∨ ∃ k phase, w.tasks k = some ⟨id, phase⟩ ∧ s ∈ phase.sessions

/-- The login has made the session of this name, for this principal, and its refresh token was issued for it. -/
structure StemsFrom (log : SessionLog) (id : String) (s : AppSession) (state : String) : Prop where
  created : (id, state) ∈ log.created
  answered : (state, ⟨s.subject, s.roles⟩) ∈ log.answers
  issued : ∀ token ∈ s.refreshToken, (token, state) ∈ log.issued

structure Origins (w : LoginWorld) : Prop where
  held : ∀ id s, w.Held id s → ∃ state, StemsFrom w.log id s state
  owner : ∀ token a b, (token, a) ∈ w.log.issued → (token, b) ∈ w.log.issued → a = b

theorem held_sessions (phase : RefreshPhase) : phase.held ⊆ phase.sessions := by
  cases phase with
  | resolved session => exact List.nil_subset _
  | _ => exact List.Subset.refl _

/-- After a task has changed its phase, what is held was held before, or is what the task holds now. -/
theorem held_setPhase {k : ℕ} {id id' : String} {phase : RefreshPhase} {s : AppSession}
    (h : (w.setPhase k id phase).Held id' s) : w.Held id' s ∨ id' = id ∧ s ∈ phase.sessions := by
  obtain h | ⟨k', phase', hk', hs⟩ := h
  · exact .inl (.inl h)
  · rcases task_update hk' with ⟨-, rfl, rfl⟩ | ⟨-, hk'⟩
    · exact .inr ⟨rfl, hs⟩
    · exact .inl (.inr ⟨k', phase', hk', hs⟩)

theorem setSession_self (w : LoginWorld) (id : String) (session : Option AppSession) :
    (w.setSession id session).sessions id = session :=
  Function.update_self ..

theorem held_setSession {id id' : String} {session : Option AppSession} {s : AppSession}
    (h : (w.setSession id session).Held id' s) : w.Held id' s ∨ id' = id ∧ session = some s := by
  obtain h | h := h
  · rcases update_eq_some h with ⟨rfl, hnew⟩ | ⟨-, hold⟩
    · exact .inr ⟨rfl, hnew⟩
    · exact .inl (.inl hold)
  · exact .inl (.inr h)

theorem StemsFrom.mono {log log' : SessionLog} {id : String} {s : AppSession} {state : String} (h : StemsFrom log id s state)
    (hcreated : log.created ⊆ log'.created) (hanswers : log.answers ⊆ log'.answers) (hissued : log.issued ⊆ log'.issued) :
    StemsFrom log' id s state :=
  ⟨hcreated h.created, hanswers h.answered, fun token htoken => hissued (h.issued token htoken)⟩

/-- A step that holds nothing new and writes none of the three histories. -/
theorem Origins.of_held (h : w.Origins) (hheld : ∀ id s, w'.Held id s → w.Held id s)
    (hcreated : w'.log.created = w.log.created) (hanswers : w.log.answers ⊆ w'.log.answers)
    (hissued : w'.log.issued = w.log.issued) : w'.Origins := by
  refine ⟨fun id s hs => ?_, fun token a b ha hb => h.owner token a b (hissued ▸ ha) (hissued ▸ hb)⟩
  obtain ⟨state, hstems⟩ := h.held id s (hheld id s hs)
  exact ⟨state, hstems.mono (hcreated ▸ List.Subset.refl _) hanswers (hissued ▸ List.Subset.refl _)⟩

theorem loginOf_eq (h : w.Logins) {id state : String} (hcreated : (id, state) ∈ w.log.created) : w.loginOf id = state := by
  rw [loginOf, Lists.find?_key h.ids hcreated]
  rfl

/-- Tokens issued for one login keep their owner when each of them is new, or was issued for it before. -/
theorem Origins.issue (h : w.Origins) {state : String} {tokens : List String}
    (hnew : ∀ token ∈ tokens, (token, state) ∈ w.log.issued ∨ token ∉ w.log.issued.map Prod.fst) (token a b : String)
    (ha : (token, a) ∈ w.log.issued ++ tokens.map (·, state)) (hb : (token, b) ∈ w.log.issued ++ tokens.map (·, state)) :
    a = b := by
  have hcases {c : String} (hc : (token, c) ∈ w.log.issued ++ tokens.map (·, state)) :
      (token, c) ∈ w.log.issued ∨ c = state ∧ token ∈ tokens := by
    rcases List.mem_append.1 hc with hc | hc
    · exact .inl hc
    · obtain ⟨t, ht, heq⟩ := List.mem_map.1 hc
      obtain ⟨rfl, rfl⟩ := Prod.mk.inj heq
      exact .inr ⟨rfl, ht⟩
  have hmeet {c : String} (hc : (token, c) ∈ w.log.issued) (ht : token ∈ tokens) : c = state := by
    rcases hnew token ht with hold | hnone
    · exact h.owner token c state hc hold
    · exact (hnone (List.mem_map_of_mem hc)).elim
  rcases hcases ha with hold | ⟨hstate, htoken⟩ <;> rcases hcases hb with hold' | ⟨hstate', htoken'⟩
  · exact h.owner token a b hold hold'
  · rw [hstate', hmeet hold htoken']
  · rw [hstate, hmeet hold' htoken]
  · exact hstate.trans hstate'.symm

theorem Takes.origins (h : w.Takes w') (hl : w.Logins) (hw : w.Origins) : w'.Origins := by
  cases h with
  | asks => exact hw.of_held (fun _ _ hs => hs) rfl (List.Subset.refl _) rfl
  | @starts id _ hfree =>
    refine hw.of_held (fun id' s hs => ?_) rfl (List.Subset.refl _) rfl
    have hstarted : (w.setPhase w.nextTask id .loading).Held id' s := hs
    rcases held_setPhase hstarted with hold | ⟨-, hnew⟩
    · exact hold
    · cases hnew
  | frees => exact hw.of_held (fun _ _ hs => hs) rfl (List.Subset.refl _) rfl
  | @reads k id htask =>
    refine hw.of_held (fun id' s hs => ?_) rfl (List.Subset.refl _) rfl
    rcases held_setPhase hs with hold | ⟨rfl, hnew⟩
    · exact hold
    · exact .inl (Option.mem_toList.1 hnew)
  | @moves k id phase phase' htask h =>
    refine hw.of_held (fun id' s hs => ?_) rfl (List.Subset.refl _) rfl
    rcases held_setPhase hs with hold | ⟨rfl, hnew⟩
    · exact hold
    · exact .inr ⟨k, phase, htask, held_sessions phase (h.sessions hnew)⟩
  | @sends k id session htask =>
    refine hw.of_held (fun id' s hs => ?_) rfl (List.Subset.refl _) rfl
    have hsent : (w.setPhase k id (.granting session)).Held id' s := hs
    rcases held_setPhase hsent with hold | ⟨rfl, hnew⟩
    · exact hold
    · exact .inr ⟨k, _, htask, hnew⟩
  | @rotates k id session refreshed htask hsubject hroles hfresh =>
    obtain ⟨state, hcreated, hanswered, hissued⟩ := hw.held id session (.inr ⟨k, _, htask, List.mem_singleton_self _⟩)
    have hlogin := loginOf_eq hl hcreated
    have hsub : w.log.issued ⊆ (w.rotate id session refreshed).log.issued := List.subset_append_left ..
    refine ⟨fun id' s hs => ?_, fun token a b ha hb => ?_⟩
    · rcases held_setPhase hs with hold | ⟨rfl, hnew⟩
      · obtain ⟨state', hstems⟩ := hw.held id' s hold
        exact ⟨state', hstems.mono (List.Subset.refl _) (List.Subset.refl _) hsub⟩
      · refine ⟨state, ?_⟩
        rcases List.mem_pair.1 hnew with rfl | rfl
        · exact ⟨hcreated, hanswered, fun token htoken => hsub (hissued token htoken)⟩
        · refine ⟨hcreated, hsubject ▸ hroles ▸ hanswered, fun token htoken => List.mem_append_right _ ?_⟩
          rw [hlogin]
          exact List.mem_map_of_mem (Option.mem_toList.2 htoken)
    · refine hw.issue (fun token htoken => ?_) token a b ha hb
      rw [hlogin]
      exact (hfresh token (Option.mem_toList.1 htoken)).imp_left fun hold => hissued token hold
  | @fails k id session refreshed htask =>
    refine hw.of_held (fun id' s hs => ?_) rfl (List.Subset.refl _) rfl
    rcases held_setPhase hs with hold | ⟨-, hnew⟩
    · exact hold
    · cases hnew
  | @saves k id session refreshed result htask hresult =>
    have hrefreshed : w.Held id refreshed := .inr ⟨k, _, htask, by simp [RefreshPhase.sessions, RefreshPhase.held]⟩
    refine hw.of_held (fun id' s hs => ?_) rfl (List.Subset.refl _) rfl
    rcases held_setPhase hs with hstored | ⟨rfl, hnew⟩
    · rcases held_setSession hstored with hold | ⟨rfl, hnew⟩
      · exact hold
      · exact Option.some.inj hnew ▸ hrefreshed
    · exact hresult s (Option.mem_toList.1 hnew) ▸ hrefreshed
  | @remembers state login hnew =>
    unfold saveLoginState
    split
    · exact hw
    · exact hw.of_held (fun _ _ hs => hs) rfl (List.Subset.refl _) rfl
  | consumes => exact hw.of_held (fun _ _ hs => hs) rfl (List.Subset.refl _) rfl
  | finishes => exact hw.of_held (fun _ _ hs => hs) rfl (List.Subset.refl _) rfl
  | @issues c state login tokens phase hcallback hfresh =>
    refine ⟨fun id s hs => ?_, fun token a b ha hb => ?_⟩
    · obtain ⟨state', hstems⟩ := hw.held id s hs
      exact ⟨state', hstems.mono (List.Subset.refl _) (List.Subset.refl _) (List.subset_append_left ..)⟩
    · exact hw.issue (fun token htoken => .inr (hfresh token (Option.mem_toList.1 htoken))) token a b ha hb
  | identifies => exact hw.of_held (fun _ _ hs => hs) rfl (List.subset_append_left ..) rfl
  | @creates c state id tokens principal now hcallback hid =>
    refine ⟨fun id' s hs => ?_, hw.owner⟩
    have hstored : (w.setSession id (some (newSession tokens principal now))).Held id' s := hs
    rcases held_setSession hstored with hold | ⟨rfl, hnew⟩
    · obtain ⟨state', hstems⟩ := hw.held id' s hold
      exact ⟨state', hstems.mono (List.subset_append_left ..) (List.Subset.refl _) (List.Subset.refl _)⟩
    · obtain rfl := Option.some.inj hnew
      refine ⟨state, List.mem_append_right _ (List.mem_singleton_self _), hl.answered c state tokens principal hcallback,
        fun token htoken => ?_⟩
      exact hl.granted c state _ hcallback token (Option.mem_toList.2 htoken)
  | @logsOut id =>
    refine hw.of_held (fun id' s hs => ?_) rfl (List.Subset.refl _) rfl
    have hdeleted : (w.setSession id none).Held id' s := hs
    rcases held_setSession hdeleted with hold | ⟨-, hnew⟩
    · exact hold
    · cases hnew
  | expires =>
    refine hw.of_held (fun id' s hs => ?_) rfl (List.Subset.refl _) rfl
    rcases held_setSession hs with hold | ⟨-, hnew⟩
    · exact hold
    · cases hnew
  | expiresLogin => exact hw.of_held (fun _ _ hs => hs) rfl (List.Subset.refl _) rfl

end LoginWorld

end InvoiceOps
