import InvoiceOps.Web.Origins

/-! Refresh tokens and logouts over whole runs. The comment in `web/src/lib/auth/resolve.ts` says that a request holding an
older session cannot rotate a token that was rotated already; `rotated_once` is that for every order of steps. A session
that is logged out while it is renewed comes back, and only then. -/

namespace InvoiceOps

open StateMachine Relation

namespace LoginWorld

variable {w w' : LoginWorld}

/-- A token that was exchanged for another one is not used again, unless its successor was lost: Redis has it only while its
successor is being saved. -/
structure Tokens (w : LoginWorld) : Prop where
  known : ∀ token ∈ w.log.rotated, ∃ state, (token, state) ∈ w.log.issued ∧ state ∈ w.log.created.map Prod.snd
  stored : ∀ id s, w.sessions id = some s → ∀ token ∈ s.refreshToken, token ∈ w.log.rotated → token ∈ w.log.lost ∨
    ∃ k session refreshed, w.tasks k = some ⟨id, .saving session refreshed⟩ ∧ session.refreshToken = some token
  usable : ∀ k id phase, w.tasks k = some ⟨id, phase⟩ → ∀ token ∈ phase.usable, token ∈ w.log.rotated → token ∈ w.log.lost
  reused : w.log.reused ⊆ w.log.lost

theorem mem_replaced {session refreshed : AppSession} {token : String} : token ∈ replaced session refreshed ↔
    session.refreshToken = some token ∧ refreshed.refreshToken ≠ some token := by
  unfold replaced
  split_ifs with h
  · simp [h]
  · rw [Option.mem_toList]
    exact ⟨fun hs => ⟨hs, fun hr => h (hr.trans hs.symm)⟩, And.left⟩

theorem usable_held {phase : RefreshPhase} {token : String} (h : token ∈ phase.usable) :
    phase.active = true ∧ ∃ s ∈ phase.sessions, token ∈ s.refreshToken := by
  cases phase with
  | checking session =>
    obtain ⟨s, hs, htoken⟩ := List.mem_flatMap.1 h
    exact ⟨rfl, s, hs, Option.mem_toList.1 htoken⟩
  | configuring session => exact ⟨rfl, session, List.mem_singleton_self _, Option.mem_toList.1 h⟩
  | granting session => exact ⟨rfl, session, List.mem_singleton_self _, Option.mem_toList.1 h⟩
  | saving session refreshed =>
    exact ⟨rfl, refreshed, List.mem_cons_of_mem _ (List.mem_singleton_self _), Option.mem_toList.1 h⟩
  | _ => cases h

/-- Two names whose sessions have one refresh token are the same. -/
theorem Origins.same_id (h : w.Origins) (hl : w.Logins) {id id' : String} {s s' : AppSession} {token : String}
    (hs : w.Held id s) (hs' : w.Held id' s') (ht : token ∈ s.refreshToken) (ht' : token ∈ s'.refreshToken) : id = id' := by
  obtain ⟨state, hstems⟩ := h.held id s hs
  obtain ⟨state', hstems'⟩ := h.held id' s' hs'
  obtain rfl := h.owner token state state' (hstems.issued token ht) (hstems'.issued token ht')
  exact congrArg Prod.fst (List.inj_on_of_nodup_map hl.states hstems.created hstems'.created rfl)

/-- A task that was not saving goes on with tokens it may use. -/
theorem Tokens.setPhase (h : w.Tokens) {k : ℕ} {id : String} {phase phase' : RefreshPhase}
    (htask : w.tasks k = some ⟨id, phase⟩) (hbefore : ∀ session refreshed, phase ≠ .saving session refreshed)
    (husable : ∀ token ∈ phase'.usable, token ∈ w.log.rotated → token ∈ w.log.lost) : (w.setPhase k id phase').Tokens := by
  refine ⟨h.known, fun id' s hs token htoken hrotated => ?_, fun k' id' phase₁ hk' token htoken hrotated => ?_, h.reused⟩
  · refine (h.stored id' s hs token htoken hrotated).imp_right ?_
    rintro ⟨k', session, refreshed, hk', hsession⟩
    have hne : k' ≠ k := by
      rintro rfl
      obtain ⟨-, rfl⟩ := Refresh.mk.inj (Option.some.inj (hk'.symm.trans htask))
      exact hbefore session refreshed rfl
    exact ⟨k', session, refreshed, (Function.update_of_ne hne ..).trans hk', hsession⟩
  · rcases task_update hk' with ⟨-, -, rfl⟩ | ⟨-, hold⟩
    · exact husable token htoken hrotated
    · exact h.usable k' id' phase₁ hold token htoken hrotated

/-- The exchange of the token a task has presented. No other session has it. -/
theorem Tokens.rotate (h : w.Tokens) (hf : w.Flights) (hl : w.Logins) (ho : w.Origins) {k : ℕ} {id : String}
    {session refreshed : AppSession} (htask : w.tasks k = some ⟨id, .granting session⟩)
    (hfresh : ∀ token ∈ refreshed.refreshToken, session.refreshToken = some token ∨ token ∉ w.log.issued.map Prod.fst) :
    ((w.rotate id session refreshed).setPhase k id (.saving session refreshed)).Tokens := by
  have hsession : w.Held id session := .inr ⟨k, _, htask, List.mem_singleton_self _⟩
  refine ⟨fun token hrotated => ?_, fun id' s hs token htoken hrotated => ?_, fun k' id' phase hk' token htoken hrotated => ?_,
    h.reused⟩
  · rcases List.mem_append.1 hrotated with hold | hnew
    · obtain ⟨state, hissued, hcreated⟩ := h.known token hold
      exact ⟨state, List.mem_append_left _ hissued, hcreated⟩
    · obtain ⟨state, hstems⟩ := ho.held id session hsession
      exact ⟨state, List.mem_append_left _ (hstems.issued token (mem_replaced.1 hnew).1), List.mem_map_of_mem hstems.created⟩
  · rcases List.mem_append.1 hrotated with hold | hnew
    · refine (h.stored id' s hs token htoken hold).imp_right ?_
      rintro ⟨k', session', refreshed', hk', hsession'⟩
      have hne : k' ≠ k := by
        rintro rfl
        cases hk'.symm.trans htask
      exact ⟨k', session', refreshed', (Function.update_of_ne hne ..).trans hk', hsession'⟩
    · have htoken' := (mem_replaced.1 hnew).1
      obtain rfl := ho.same_id hl hsession (.inl hs) htoken' htoken
      exact .inr ⟨k, session, refreshed, Function.update_self .., htoken'⟩
  · rcases task_update hk' with ⟨-, -, rfl⟩ | ⟨hne, hold⟩
    · have hrefreshed : token ∈ refreshed.refreshToken := Option.mem_toList.1 htoken
      rcases List.mem_append.1 hrotated with hrotated | hnew
      · rcases hfresh token hrefreshed with hpresented | hissued
        · exact h.usable k id _ htask token (Option.mem_toList.2 hpresented) hrotated
        · obtain ⟨state, hknown, -⟩ := h.known token hrotated
          exact (hissued (List.mem_map_of_mem hknown)).elim
      · exact ((mem_replaced.1 hnew).2 hrefreshed).elim
    · rcases List.mem_append.1 hrotated with hrotated | hnew
      · exact h.usable k' id' phase hold token htoken hrotated
      · obtain ⟨hactive, s, hs, hs'⟩ := usable_held htoken
        obtain rfl := ho.same_id hl hsession (.inr ⟨k', phase, hold, hs⟩) (mem_replaced.1 hnew).1 hs'
        exact (hne (hf.unique hold htask hactive rfl)).elim

theorem Tokens.fail (h : w.Tokens) {k : ℕ} {id : String} {session refreshed : AppSession}
    (htask : w.tasks k = some ⟨id, .saving session refreshed⟩) :
    ((w.lose session refreshed).setPhase k id (.resolved none)).Tokens := by
  refine ⟨h.known, fun id' s hs token htoken hrotated => ?_, fun k' id' phase hk' token htoken hrotated => ?_,
    fun token htoken => List.mem_append_left _ (h.reused htoken)⟩
  · rcases h.stored id' s hs token htoken hrotated with hlost | ⟨k', session', refreshed', hk', hsession'⟩
    · exact .inl (List.mem_append_left _ hlost)
    · by_cases hk : k' = k
      · subst hk
        obtain ⟨-, hphase⟩ := Refresh.mk.inj (Option.some.inj (hk'.symm.trans htask))
        obtain ⟨rfl, rfl⟩ := RefreshPhase.saving.inj hphase
        left
        by_cases hkept : refreshed'.refreshToken = some token
        · exact List.mem_append_left _ (h.usable k' id _ htask token (Option.mem_toList.2 hkept) hrotated)
        · exact List.mem_append_right _ (mem_replaced.2 ⟨hsession', hkept⟩)
      · exact .inr ⟨k', session', refreshed', (Function.update_of_ne hk ..).trans hk', hsession'⟩
  · rcases task_update hk' with ⟨-, -, rfl⟩ | ⟨-, hold⟩
    · cases htoken
    · exact List.mem_append_left _ (h.usable k' id' phase hold token htoken hrotated)

theorem Tokens.save (h : w.Tokens) {k : ℕ} {id : String} {session refreshed : AppSession} {result : Option AppSession}
    (htask : w.tasks k = some ⟨id, .saving session refreshed⟩) :
    ((w.setSession id (some refreshed)).setPhase k id (.resolved result)).Tokens := by
  refine ⟨h.known, fun id' s hs token htoken hrotated => ?_, fun k' id' phase hk' token htoken hrotated => ?_, h.reused⟩
  · rcases update_eq_some hs with ⟨rfl, hnew⟩ | ⟨hid, hold⟩
    · obtain rfl := Option.some.inj hnew
      exact .inl (h.usable k id' _ htask token (Option.mem_toList.2 htoken) hrotated)
    · refine (h.stored id' s hold token htoken hrotated).imp_right ?_
      rintro ⟨k', session', refreshed', hk', hsession'⟩
      have hne : k' ≠ k := by
        rintro rfl
        obtain ⟨hid', -⟩ := Refresh.mk.inj (Option.some.inj (hk'.symm.trans htask))
        exact hid hid'
      exact ⟨k', session', refreshed', (Function.update_of_ne hne ..).trans hk', hsession'⟩
  · rcases task_update hk' with ⟨-, -, rfl⟩ | ⟨-, hold⟩
    · cases htoken
    · exact h.usable k' id' phase hold token htoken hrotated

/-- A session that is made or removed has no token that was exchanged before. -/
theorem Tokens.setSession (h : w.Tokens) {id : String} {session : Option AppSession}
    (hnew : ∀ s ∈ session, ∀ token ∈ s.refreshToken, token ∉ w.log.rotated) : (w.setSession id session).Tokens := by
  refine ⟨h.known, fun id' s hs token htoken hrotated => ?_, h.usable, h.reused⟩
  rcases update_eq_some hs with ⟨-, hsession⟩ | ⟨-, hold⟩
  · exact (hnew s hsession token htoken hrotated).elim
  · exact h.stored id' s hold token htoken hrotated

theorem Takes.tokens (h : w.Takes w') (hf : w.Flights) (hl : w.Logins) (ho : w.Origins) (hw : w.Tokens) : w'.Tokens := by
  cases h with
  | asks => exact { hw with }
  | @starts id _ hfree =>
    refine ⟨hw.known, fun id' s hs token htoken hrotated => ?_, fun k' id' phase hk' token htoken hrotated => ?_, hw.reused⟩
    · refine (hw.stored id' s hs token htoken hrotated).imp_right ?_
      rintro ⟨k', session, refreshed, hk', hsession⟩
      exact ⟨k', session, refreshed, (Function.update_of_ne (FlightOk.bound hf k' _ hk').ne ..).trans hk', hsession⟩
    · rcases task_update hk' with ⟨-, -, rfl⟩ | ⟨-, hold⟩
      · cases htoken
      · exact hw.usable k' id' phase hold token htoken hrotated
  | frees => exact { hw with }
  | @reads k id htask =>
    refine hw.setPhase htask (fun session refreshed h => nomatch h) fun token htoken hrotated => ?_
    obtain ⟨s, hs, hs'⟩ := List.mem_flatMap.1 htoken
    rcases hw.stored id s (Option.mem_toList.1 hs) token (Option.mem_toList.1 hs') hrotated with hlost | ⟨k', s', r', hk', -⟩
    · exact hlost
    · obtain rfl := hf.unique hk' htask rfl rfl
      cases hk'.symm.trans htask
  | moves htask h => exact hw.setPhase htask h.before fun token htoken => hw.usable _ _ _ htask token (h.usable htoken)
  | @sends k id session htask =>
    have hsent : (w.setPhase k id (.granting session)).Tokens :=
      hw.setPhase htask (fun session refreshed h => nomatch h) fun token htoken => hw.usable k id _ htask token htoken
    refine { hsent with reused := List.append_subset.2 ⟨hw.reused, fun token htoken => ?_⟩ }
    obtain ⟨htoken, hrotated⟩ := List.mem_filter.1 htoken
    exact hw.usable k id _ htask token htoken (of_decide_eq_true hrotated)
  | rotates htask _ _ hfresh => exact hw.rotate hf hl ho htask hfresh
  | fails htask => exact hw.fail htask
  | saves htask => exact hw.save htask
  | remembers =>
    unfold saveLoginState
    split
    · exact hw
    · exact { hw with }
  | consumes => exact { hw with }
  | finishes => exact { hw with }
  | issues =>
    refine { hw with known := fun token hrotated => ?_ }
    obtain ⟨state, hissued, hcreated⟩ := hw.known token hrotated
    exact ⟨state, List.mem_append_left _ hissued, hcreated⟩
  | identifies => exact { hw with }
  | @creates c state id tokens principal now hcallback hid =>
    have hstored : (w.setSession id (some (newSession tokens principal now))).Tokens := by
      refine hw.setSession fun s hs token htoken hrotated => ?_
      obtain rfl := Option.some.inj hs
      obtain ⟨state', hissued, hcreated⟩ := hw.known token hrotated
      obtain rfl := ho.owner token state state'
        (hl.granted c state _ hcallback token (Option.mem_toList.2 htoken)) hissued
      exact (hl.taken c state ⟨_, hcallback, fun hf => nomatch hf⟩).2.1 hcreated
    refine { hstored with known := fun token hrotated => ?_ }
    obtain ⟨state', hissued, hcreated⟩ := hw.known token hrotated
    exact ⟨state', hissued, List.map_subset _ (List.subset_append_left ..) hcreated⟩
  | @logsOut id =>
    have hdeleted : (w.setSession id none).Tokens := hw.setSession fun s hs => nomatch hs
    exact { hdeleted with }
  | expires => exact hw.setSession fun s hs => nomatch hs
  | expiresLogin => exact { hw with }

/-- A session that is logged out, and was not being renewed at that moment, is gone and no task has it. -/
structure LoggedOut (w : LoginWorld) : Prop where
  gone : ∀ id ∈ w.log.loggedOut, id ∉ w.log.overtaken → w.sessions id = none
  idle : ∀ id ∈ w.log.loggedOut, id ∉ w.log.overtaken → ∀ k phase, w.tasks k = some ⟨id, phase⟩ → phase.held = []

theorem LoggedOut.setPhase (h : w.LoggedOut) {k : ℕ} {id : String} {phase' : RefreshPhase}
    (hphase : id ∈ w.log.loggedOut → id ∉ w.log.overtaken → phase'.held = []) : (w.setPhase k id phase').LoggedOut := by
  refine ⟨h.gone, fun id' hid' hquiet k' phase hk' => ?_⟩
  rcases task_update hk' with ⟨-, rfl, rfl⟩ | ⟨-, hold⟩
  · exact hphase hid' hquiet
  · exact h.idle id' hid' hquiet k' phase hold

theorem LoggedOut.setSession (h : w.LoggedOut) {id : String} {session : Option AppSession}
    (hsession : id ∈ w.log.loggedOut → id ∉ w.log.overtaken → session = none) : (w.setSession id session).LoggedOut := by
  refine ⟨fun id' hid' hquiet => ?_, h.idle⟩
  by_cases hid : id' = id
  · subst hid
    exact (w.setSession_self id' session).trans (hsession hid' hquiet)
  · exact (Function.update_of_ne hid ..).trans (h.gone id' hid' hquiet)

theorem held_active {phase : RefreshPhase} (h : phase.held ≠ []) : phase.active = true := by
  cases phase with
  | resolved session => exact (h rfl).elim
  | _ => rfl

theorem LoggedOut.logout (h : w.LoggedOut) (hf : w.Flights) (id : String) : (w.logout id).LoggedOut := by
  have hquiet {id' : String} (hid' : id' ∈ (w.logout id).log.loggedOut) (hno : id' ∉ (w.logout id).log.overtaken) :
      id' ∉ w.log.overtaken ∧ (id' ∈ w.log.loggedOut ∨ id' = id ∧ w.renewing id = false) := by
    obtain ⟨hold, hnew⟩ := not_or.1 (mt List.mem_append.2 hno)
    refine ⟨hold, ?_⟩
    rcases List.mem_append.1 hid' with hmem | hmem
    · exact .inl hmem
    · obtain rfl := List.mem_singleton.1 hmem
      refine .inr ⟨rfl, Bool.eq_false_iff.2 fun hrenewing => hnew ?_⟩
      rw [if_pos hrenewing]
      exact List.mem_singleton_self _
  refine ⟨fun id' hid' hno => ?_, fun id' hid' hno k phase hk => ?_⟩
  · obtain ⟨hold, hmem | ⟨rfl, -⟩⟩ := hquiet hid' hno
    · by_cases hid : id' = id
      · subst hid
        exact w.setSession_self id' none
      · exact (Function.update_of_ne hid ..).trans (h.gone id' hmem hold)
    · exact w.setSession_self id' none
  · obtain ⟨hold, hmem | ⟨rfl, hrenewing⟩⟩ := hquiet hid' hno
    · exact h.idle id' hmem hold k phase hk
    · by_contra hheld
      have hmap := FlightOk.flight hf k id' phase hk (held_active hheld)
      have htask : w.tasks k = some ⟨id', phase⟩ := hk
      rw [renewing, hmap, Option.bind_some, htask] at hrenewing
      simp [hheld] at hrenewing

theorem Takes.loggedOut (h : w.Takes w') (hf : w.Flights) (hw : w.LoggedOut) : w'.LoggedOut := by
  cases h with
  | asks => exact { hw with }
  | @starts id _ hfree =>
    have hstarted : (w.setPhase w.nextTask id .loading).LoggedOut := hw.setPhase fun _ _ => rfl
    exact { hstarted with }
  | frees => exact { hw with }
  | @reads k id htask =>
    refine hw.setPhase fun hid hquiet => ?_
    rw [hw.gone id hid hquiet]
    rfl
  | @moves k id phase phase' htask h =>
    refine hw.setPhase fun hid hquiet => ?_
    have hsub : phase'.held ⊆ phase.held := fun s hs => h.sessions (held_sessions phase' hs)
    rw [hw.idle id hid hquiet k phase htask] at hsub
    exact List.subset_nil.1 hsub
  | @sends k id session htask =>
    have hsent : (w.setPhase k id (.granting session)).LoggedOut :=
      hw.setPhase fun hid hquiet => nomatch hw.idle id hid hquiet k _ htask
    exact { hsent with }
  | @rotates k id session refreshed htask =>
    have hsaving : (w.setPhase k id (.saving session refreshed)).LoggedOut :=
      hw.setPhase fun hid hquiet => nomatch hw.idle id hid hquiet k _ htask
    exact { hsaving with }
  | @fails k id session refreshed htask =>
    have hfailed : (w.setPhase k id (.resolved none)).LoggedOut := hw.setPhase fun _ _ => rfl
    exact { hfailed with }
  | @saves k id session refreshed result htask =>
    have hstored : (w.setSession id (some refreshed)).LoggedOut :=
      hw.setSession fun hid hquiet => nomatch hw.idle id hid hquiet k _ htask
    exact hstored.setPhase fun _ _ => rfl
  | remembers =>
    unfold saveLoginState
    split
    · exact hw
    · exact { hw with }
  | consumes => exact { hw with }
  | finishes => exact { hw with }
  | issues => exact { hw with }
  | identifies => exact { hw with }
  | @creates c state id tokens principal now hcallback hid hout =>
    have hstored : (w.setSession id (some (newSession tokens principal now))).LoggedOut :=
      hw.setSession fun hmem => (hout hmem).elim
    exact { hstored with }
  | logsOut => exact hw.logout hf _
  | expires => exact hw.setSession fun _ _ => rfl
  | expiresLogin => exact { hw with }

structure SessionsOk (w : LoginWorld) : Prop where
  flights : w.Flights
  logins : w.Logins
  origins : w.Origins
  tokens : w.Tokens
  loggedOut : w.LoggedOut

theorem sessionsOk_initial : initial.SessionsOk where
  flights := ⟨fun k id phase h => (nomatch h), fun id k h => (nomatch h), fun k t h => (nomatch h)⟩
  logins := ⟨fun state login h => (nomatch h), fun c state h => (nomatch h.choose_spec.1),
    fun c c' state h => (nomatch h.choose_spec.1), fun c state tokens principal h => (nomatch h),
    fun c state phase h => (nomatch h), List.nil_subset _, List.nodup_nil, List.nodup_nil⟩
  origins := by
    refine ⟨fun id s hs => ?_, fun token a b h => nomatch h⟩
    obtain hs | ⟨k, phase, hs, -⟩ := hs <;> cases hs
  tokens := ⟨fun token h => (nomatch h), fun id s h => (nomatch h), fun k id phase h => (nomatch h), List.nil_subset _⟩
  loggedOut := ⟨fun id h => (nomatch h), fun id h => (nomatch h)⟩

theorem Takes.ok (h : w.Takes w') (hw : w.SessionsOk) : w'.SessionsOk where
  flights := h.flights hw.flights
  logins := h.logins hw.logins
  origins := h.origins hw.logins hw.origins
  tokens := h.tokens hw.flights hw.logins hw.origins hw.tokens
  loggedOut := h.loggedOut hw.flights hw.loggedOut

theorem ok_of_takes (h : ReflTransGen Takes w w') (hw : w.SessionsOk) : w'.SessionsOk := by
  induction h with
  | refl => exact hw
  | tail _ ht ih => exact ht.ok ih

theorem sessionsOk_next {e : SessionEvent} (hw : w.SessionsOk) (h : restrict Fresh next w e = some w') : w'.SessionsOk := by
  obtain ⟨hfresh, hnext⟩ := restrict_eq_some.1 h
  exact ok_of_takes (takes_of_next hfresh hnext) hw

variable {events : List SessionEvent}

theorem sessionsOk_run (h : Steps (restrict Fresh next) initial events w) : w.SessionsOk :=
  h.invariant (fun _ _ _ hw hn => sessionsOk_next hw hn) sessionsOk_initial

/-- Over every run, a refresh token that the provider has exchanged for another one is presented again only when that other
one did not reach Redis. -/
theorem rotated_once (h : Steps (restrict Fresh next) initial events w) : w.log.reused ⊆ w.log.lost :=
  (sessionsOk_run h).tokens.reused

/-- A login, and a request that finds its access token run out. -/
def loginEvents : List SessionEvent :=
  [.login "s" ⟨"v", "n"⟩, .callback 0 "s" (some "s") false, .exchange 0 (.granted ⟨"a1", some "r1", none⟩),
    .identify 0 (some ⟨"ada", [.reviewer]⟩), .create 0 "id" .saved 0]

/-- A request has the session renewed, up to the grant. -/
def renewEvents (r k : ℕ) : List SessionEvent :=
  [.load r "id", .resume r 400000, .read k true, .check k 400000, .configure k true]

/-- The answer of a grant is lost, and the token is presented again. -/
theorem rotated_once_unheard : ∃ w, Steps (restrict Fresh next) initial
      (loginEvents ++ renewEvents 0 0 ++ [.grant 0 (.unheard ⟨"a2", some "r2", none⟩) 400001, .wake 0] ++ renewEvents 1 1) w ∧
    w.log.reused = ["r1"] ∧ w.log.reused ⊆ w.log.lost := by
  have hexec : (exec (restrict Fresh next) initial
      (loginEvents ++ renewEvents 0 0 ++ [.grant 0 (.unheard ⟨"a2", some "r2", none⟩) 400001, .wake 0] ++
        renewEvents 1 1)).any (fun w => w.log.reused = ["r1"]) = true := by
    decide +kernel
  obtain ⟨w, hw, hreused⟩ := (Option.any_eq_true _ _).1 hexec
  exact ⟨w, .of_exec hw, of_decide_eq_true hreused, rotated_once (.of_exec hw)⟩

/-- Over every run, a session that was logged out is there again only if it was being renewed at that moment. -/
theorem logged_out {id : String} (h : Steps (restrict Fresh next) initial events w) (hid : id ∈ w.log.loggedOut)
    (hthere : w.sessions id ≠ none) : id ∈ w.log.overtaken := by
  by_contra hquiet
  exact hthere ((sessionsOk_run h).loggedOut.gone id hid hquiet)

/-- A logout while the provider renews the session: what the provider answers is saved under the name that was deleted. -/
theorem logged_out_renewing : ∃ w, Steps (restrict Fresh next) initial
      (loginEvents ++ renewEvents 0 0 ++ [.logout "id", .grant 0 (.granted ⟨"a2", some "r2", none⟩) 400001, .save 0 .saved]) w ∧
    "id" ∈ w.log.loggedOut ∧ w.sessions "id" ≠ none ∧ "id" ∈ w.log.overtaken := by
  have hexec : (exec (restrict Fresh next) initial
      (loginEvents ++ renewEvents 0 0 ++
        [.logout "id", .grant 0 (.granted ⟨"a2", some "r2", none⟩) 400001, .save 0 .saved])).any
      (fun w => "id" ∈ w.log.loggedOut ∧ w.sessions "id" ≠ none) = true := by
    decide +kernel
  obtain ⟨w, hw, hexec⟩ := (Option.any_eq_true _ _).1 hexec
  obtain ⟨hid, hthere⟩ := of_decide_eq_true hexec
  exact ⟨w, .of_exec hw, hid, hthere, logged_out (.of_exec hw) hid hthere⟩

/-- A request has sessions of its own name only, and waits for a task of its own name. -/
structure Requests (w : LoginWorld) : Prop where
  shown : ∀ r id phase, w.requests r = some ⟨id, phase⟩ → ∀ s ∈ phase.sessions, ∃ state, StemsFrom w.log id s state
  waits : ∀ r id k owner, w.requests r = some ⟨id, .awaiting k owner⟩ → ∃ phase, w.tasks k = some ⟨id, phase⟩

/-- The histories grow, and a task keeps its session. -/
structure Extends (w w' : LoginWorld) : Prop where
  created : w.log.created ⊆ w'.log.created
  answers : w.log.answers ⊆ w'.log.answers
  issued : w.log.issued ⊆ w'.log.issued
  tasks : ∀ k id phase, w.tasks k = some ⟨id, phase⟩ → ∃ phase', w'.tasks k = some ⟨id, phase'⟩

theorem extends_setPhase {k : ℕ} {id : String} {phase phase' : RefreshPhase} (htask : w.tasks k = some ⟨id, phase⟩) :
    w.Extends (w.setPhase k id phase') := by
  refine ⟨List.Subset.refl _, List.Subset.refl _, List.Subset.refl _, fun k' id' p hk' => ?_⟩
  by_cases hk : k' = k
  · subst hk
    obtain ⟨rfl, -⟩ := Refresh.mk.inj (Option.some.inj (hk'.symm.trans htask))
    exact ⟨phase', Function.update_self ..⟩
  · exact ⟨p, (Function.update_of_ne hk ..).trans hk'⟩

theorem Extends.rfl : w.Extends w :=
  ⟨List.Subset.refl _, List.Subset.refl _, List.Subset.refl _, fun _ _ phase hk => ⟨phase, hk⟩⟩

theorem Takes.extends (h : w.Takes w') (hf : w.Flights) : w.Extends w' := by
  cases h with
  | asks => exact { Extends.rfl with }
  | @starts id _ hfree =>
    refine ⟨List.Subset.refl _, List.Subset.refl _, List.Subset.refl _, fun k id' phase hk => ⟨phase, ?_⟩⟩
    exact (Function.update_of_ne (FlightOk.bound hf k _ hk).ne ..).trans hk
  | frees => exact { Extends.rfl with }
  | reads htask => exact extends_setPhase htask
  | moves htask => exact extends_setPhase htask
  | sends htask => exact { extends_setPhase htask with }
  | rotates htask => exact { extends_setPhase htask with issued := List.subset_append_left .. }
  | fails htask => exact { extends_setPhase htask with }
  | saves htask => exact { extends_setPhase htask with }
  | remembers =>
    unfold saveLoginState
    split
    · exact Extends.rfl
    · exact { Extends.rfl with }
  | consumes => exact { Extends.rfl with }
  | finishes => exact { Extends.rfl with }
  | issues => exact { Extends.rfl with issued := List.subset_append_left .. }
  | identifies => exact { Extends.rfl with answers := List.subset_append_left .. }
  | creates => exact { Extends.rfl with created := List.subset_append_left .. }
  | logsOut => exact { Extends.rfl with }
  | expires => exact { Extends.rfl with }
  | expiresLogin => exact { Extends.rfl with }

theorem Extends.trans {w'' : LoginWorld} (h : w.Extends w') (h' : w'.Extends w'') : w.Extends w'' where
  created := List.Subset.trans h.created h'.created
  answers := List.Subset.trans h.answers h'.answers
  issued := List.Subset.trans h.issued h'.issued
  tasks k id phase hk := by
    obtain ⟨phase', hk'⟩ := h.tasks k id phase hk
    exact h'.tasks k id phase' hk'

theorem extends_of_takes (h : ReflTransGen Takes w w') (hw : w.SessionsOk) : w.Extends w' := by
  induction h with
  | refl => exact Extends.rfl
  | tail hsteps ht ih => exact ih.trans (ht.extends (ok_of_takes hsteps hw).flights)

theorem Requests.extend (h : w.Requests) (hext : w.Extends w') (hrequests : w'.requests = w.requests) : w'.Requests := by
  refine ⟨fun r id phase hr s hs => ?_, fun r id k owner hr => ?_⟩
  · obtain ⟨state, hstems⟩ := h.shown r id phase (hrequests ▸ hr) s hs
    exact ⟨state, hstems.mono hext.created hext.answers hext.issued⟩
  · obtain ⟨phase, hk⟩ := h.waits r id k owner (hrequests ▸ hr)
    exact hext.tasks k id phase hk

theorem Requests.setRequest (h : w.Requests) {r : ℕ} {id : String} {phase : RequestPhase}
    (hshown : ∀ s ∈ phase.sessions, ∃ state, StemsFrom w.log id s state)
    (hwaits : ∀ k owner, phase = .awaiting k owner → ∃ p, w.tasks k = some ⟨id, p⟩) :
    (w.setRequest r ⟨id, phase⟩).Requests := by
  refine ⟨fun r' id' phase' hr => ?_, fun r' id' k owner hr => ?_⟩
  · rcases update_eq_some hr with ⟨-, hnew⟩ | ⟨-, hold⟩
    · obtain ⟨rfl, rfl⟩ := SessionRequest.mk.inj (Option.some.inj hnew)
      exact hshown
    · exact h.shown r' id' phase' hold
  · rcases update_eq_some hr with ⟨-, hnew⟩ | ⟨-, hold⟩
    · obtain ⟨rfl, hphase⟩ := SessionRequest.mk.inj (Option.some.inj hnew)
      exact hwaits k owner hphase
    · exact h.waits r' id' k owner hold

/-- A request goes on with the session it has loaded, or waits for the task of that session. -/
theorem Requests.resolveSession (h : w.Requests) (hf : w.Flights) {r : ℕ} {id : String} {loaded : Option AppSession}
    (now : ℚ) (hr : w.requests r = some ⟨id, .loaded loaded⟩) : (w.resolveSession r id loaded now).Requests := by
  have hnone : (w.setRequest r ⟨id, .answered none⟩).Requests :=
    h.setRequest (fun s hs => nomatch hs) fun k owner hphase => nomatch hphase
  unfold LoginWorld.resolveSession
  split
  · exact hnone
  · rename_i session
    split_ifs
    · exact hnone
    · exact h.setRequest (fun s hs => h.shown r id _ hr s hs) fun k owner hphase => nomatch hphase
    · exact hnone
    · split
      · rename_i k hmap
        refine h.setRequest (fun s hs => nomatch hs) fun k' owner hphase => ?_
        obtain ⟨rfl, -⟩ := RequestPhase.awaiting.inj hphase
        exact FlightOk.mapped hf id k hmap
      · rename_i hfree
        have hstarts : w.Takes (w.startRefresh id) := .starts hfree
        have hstarted : (w.startRefresh id).Requests := h.extend (hstarts.extends hf) rfl
        refine hstarted.setRequest (fun s hs => nomatch hs) fun k owner hphase => ?_
        obtain ⟨rfl, -⟩ := RequestPhase.awaiting.inj hphase
        exact ⟨.loading, Function.update_self ..⟩

theorem Requests.answer (h : w.Requests) (ho : w.Origins) {r k : ℕ} {id id' : String} {owner : Bool}
    {session : Option AppSession} (hr : w.requests r = some ⟨id, .awaiting k owner⟩)
    (htask : w.tasks k = some ⟨id', .resolved session⟩) : (w.answer r id k owner session).Requests := by
  obtain ⟨phase, hk⟩ := h.waits r id k owner hr
  obtain ⟨rfl, rfl⟩ := Refresh.mk.inj (Option.some.inj (hk.symm.trans htask))
  have hanswered : (w.setRequest r ⟨id, .answered session⟩).Requests := by
    refine h.setRequest (fun s hs => ?_) fun k owner hphase => by cases hphase
    exact ho.held id s (.inr ⟨k, _, htask, hs⟩)
  unfold LoginWorld.answer
  dsimp only
  split_ifs
  · exact { hanswered with }
  · exact hanswered

/-- The other steps leave the requests alone. -/
theorem requests_eq {e : SessionEvent} (h : w.next e = some w') (hr : e.resolves = false) : w'.requests = w.requests := by
  cases e with
  | load r id => cases hr
  | resume r now => cases hr
  | wake r => cases hr
  | login state login =>
    obtain rfl := Option.some.inj h
    unfold saveLoginState
    split <;> rfl
  | callback c state cookieState error =>
    simp only [next] at h
    split at h
    · cases h
    · obtain rfl := Option.some.inj h
      unfold callback
      split_ifs
      · rfl
      · split <;> rfl
  | grant k outcome now =>
    simp only [next] at h
    split at h
    · obtain rfl := Option.some.inj h
      cases outcome <;> rfl
    · cases h
  | save k outcome =>
    simp only [next] at h
    split at h
    · obtain rfl := Option.some.inj h
      cases outcome <;> rfl
    · cases h
  | exchange c outcome =>
    simp only [next] at h
    split at h
    · obtain rfl := Option.some.inj h
      cases outcome <;> rfl
    · cases h
  | identify c answer =>
    simp only [next] at h
    split at h
    · obtain rfl := Option.some.inj h
      cases answer <;> rfl
    · cases h
  | create c id outcome now =>
    simp only [next] at h
    split at h
    · obtain rfl := Option.some.inj h
      cases outcome <;> rfl
    · cases h
  | read k heard =>
    simp only [next] at h
    split at h
    · obtain rfl := Option.some.inj h
      rfl
    · cases h
  | check k now =>
    simp only [next] at h
    split at h
    · obtain rfl := Option.some.inj h
      rfl
    · cases h
  | configure k configured =>
    simp only [next] at h
    split at h
    · obtain rfl := Option.some.inj h
      split_ifs <;> rfl
    · cases h
  | logout id => exact Option.some.inj h ▸ rfl
  | expire id => exact Option.some.inj h ▸ rfl
  | expireLogin state => exact Option.some.inj h ▸ rfl

theorem requests_next {e : SessionEvent} (hw : w.SessionsOk) (h : w.Requests) (hn : restrict Fresh next w e = some w') :
    w'.Requests := by
  obtain ⟨hfresh, hnext⟩ := restrict_eq_some.1 hn
  have hext := extends_of_takes (takes_of_next hfresh hnext) hw
  cases e with
  | load r id =>
    simp only [next] at hnext
    split at hnext
    · cases hnext
    · obtain rfl := Option.some.inj hnext
      refine h.setRequest (fun s hs => ?_) fun k owner hphase => by cases hphase
      have hloaded : (if id = "" then none else w.sessions id) = some s := Option.mem_toList.1 hs
      split_ifs at hloaded
      exact hw.origins.held id s (.inl hloaded)
  | resume r now =>
    simp only [next] at hnext
    split at hnext
    · rename_i hr
      obtain rfl := Option.some.inj hnext
      exact h.resolveSession hw.flights now hr
    · cases hnext
  | wake r =>
    simp only [next] at hnext
    split at hnext
    · rename_i hr
      split at hnext
      · rename_i htask
        obtain rfl := Option.some.inj hnext
        exact h.answer hw.origins hr htask
      · cases hnext
    · cases hnext
  | _ => exact h.extend hext (requests_eq hnext rfl)

theorem requests_run (h : Steps (restrict Fresh next) initial events w) : w.SessionsOk ∧ w.Requests := by
  refine h.invariant (I := fun w => w.SessionsOk ∧ w.Requests) (fun _ _ _ hw hn => ?_) ⟨sessionsOk_initial, ?_⟩
  · exact ⟨sessionsOk_next hw.1 hn, requests_next hw.1 hw.2 hn⟩
  · exact ⟨fun r id phase hr => (nomatch hr), fun r id k owner hr => (nomatch hr)⟩

/-- Over every run, a session that is stored, or that a request has under its name, comes from one login: it is for the
principal that the API has answered for that login, which this application has started, and no login makes two
sessions. -/
theorem session_origin (h : Steps (restrict Fresh next) initial events w) :
    (∀ id s, (w.sessions id = some s ∨ ∃ r phase, w.requests r = some ⟨id, phase⟩ ∧ s ∈ phase.sessions) →
      ∃ state, StemsFrom w.log id s state ∧ state ∈ w.log.saved) ∧
    (w.log.created.map Prod.snd).Nodup := by
  obtain ⟨hw, hrequests⟩ := requests_run h
  refine ⟨fun id s hs => ?_, hw.logins.states⟩
  have hstems : ∃ state, StemsFrom w.log id s state := by
    obtain hs | ⟨r, phase, hr, hs⟩ := hs
    · exact hw.origins.held id s (.inl hs)
    · exact hrequests.shown r id phase hr s hs
  obtain ⟨state, hstems⟩ := hstems
  exact ⟨state, hstems, hw.logins.saved (List.mem_map_of_mem hstems.created)⟩

theorem session_origin_shared : ∃ w, Steps (restrict Fresh next) initial
      (loginEvents ++ renewEvents 0 0 ++ [.load 1 "id", .resume 1 400000,
        .grant 0 (.granted ⟨"a2", some "r2", none⟩) 400001, .save 0 .saved, .wake 1, .wake 0]) w ∧
    w.requests 1 = some ⟨"id", .answered (some ⟨"ada", [.reviewer], some "a2", some "r2", some 700001⟩)⟩ ∧
    ∃ state, StemsFrom w.log "id" ⟨"ada", [.reviewer], some "a2", some "r2", some 700001⟩ state ∧ state ∈ w.log.saved := by
  have hexec : (exec (restrict Fresh next) initial
      (loginEvents ++ renewEvents 0 0 ++ [.load 1 "id", .resume 1 400000,
        .grant 0 (.granted ⟨"a2", some "r2", none⟩) 400001, .save 0 .saved, .wake 1, .wake 0])).any
      (fun w => w.requests 1 = some ⟨"id", .answered (some ⟨"ada", [.reviewer], some "a2", some "r2", some 700001⟩)⟩) =
        true := by
    decide +kernel
  obtain ⟨w, hw, hexec⟩ := (Option.any_eq_true _ _).1 hexec
  have hanswered := of_decide_eq_true hexec
  exact ⟨w, .of_exec hw, hanswered,
    (session_origin (.of_exec hw)).1 "id" _ (.inr ⟨1, _, hanswered, List.mem_singleton_self _⟩)⟩

end LoginWorld

end InvoiceOps
