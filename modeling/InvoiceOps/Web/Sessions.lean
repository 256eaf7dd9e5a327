import InvoiceOps.Auth.Verifier
import Mathlib.Logic.Function.Basic

/-! Sessions of the web application (`web/src/lib/auth/session.ts`, `web/src/lib/auth/resolve.ts` and the login, callback and
logout routes under `web/src/app/api/auth`), in OIDC mode and in one web process. Redis holds the sessions and the logins
that are under way. A session whose access token runs out is renewed with its refresh token, by one task for all the
requests that wait for it. Between two awaits anything else may happen: other requests, a logout, a key that expires. The
clock of a step is an argument of its event, so that no order of clocks is assumed. -/

namespace InvoiceOps

open StateMachine Relation

structure AppSession where
  subject : String
  roles : List Role
  accessToken : Option String
  refreshToken : Option String
  expiresAt : Option ℚ
deriving DecidableEq

structure TokenReply where
  accessToken : String
  refreshToken : Option String
  expiresIn : Option ℚ
deriving DecidableEq

structure LoginState where
  verifier : String
  nonce : String
deriving DecidableEq

/-- The answer of `/v1/me`. -/
structure PrincipalRead where
  subject : String
  roles : List Role
deriving DecidableEq

def truthy (value : Option String) : Bool := value.any (· ≠ "")

/-- The session lasts for more than another 30 seconds. -/
def AppSession.lasts (session : AppSession) (now : ℚ) : Bool := decide (now + 30000 < session.expiresAt.getD 0)

def TokenReply.expiresAt (tokens : TokenReply) (now : ℚ) : ℚ := now + tokens.expiresIn.getD 300 * 1000

def AppSession.renewed (session : AppSession) (tokens : TokenReply) (now : ℚ) : AppSession :=
  { session with
    accessToken := some tokens.accessToken
    refreshToken := tokens.refreshToken.or session.refreshToken
    expiresAt := some (tokens.expiresAt now) }

/-- Where `refreshSession` waits. -/
inductive RefreshPhase
  | loading
  | checking (session : Option AppSession)
  | configuring (session : AppSession)
  | granting (session : AppSession)
  | saving (session refreshed : AppSession)
  | resolved (session : Option AppSession)
deriving DecidableEq

/-- The sessions a task has read or made, for as long as it may write one. -/
def RefreshPhase.held : RefreshPhase → List AppSession
  | .checking session => session.toList
  | .configuring session => [session]
  | .granting session => [session]
  | .saving session refreshed => [session, refreshed]
  | _ => []

structure Refresh where
  sessionId : String
  phase : RefreshPhase
deriving DecidableEq

/-- Where `resolveSession` waits; the request that has started a renewal owns its entry in the map. -/
inductive RequestPhase
  | loaded (session : Option AppSession)
  | awaiting (task : ℕ) (owner : Bool)
  | answered (session : Option AppSession)
deriving DecidableEq

/-- The session a request has read, or was answered with. -/
def RequestPhase.sessions : RequestPhase → List AppSession
  | .loaded session => session.toList
  | .awaiting _ _ => []
  | .answered session => session.toList

structure SessionRequest where
  sessionId : String
  phase : RequestPhase
deriving DecidableEq

/-- Where the callback of a login waits. -/
inductive CallbackPhase
  | exchanging (login : LoginState)
  | identifying (tokens : TokenReply)
  | creating (tokens : TokenReply) (principal : PrincipalRead)
  | finished

/-- The refresh tokens a callback is about to store. -/
def CallbackPhase.tokens : CallbackPhase → List String
  | .identifying tokens => tokens.refreshToken.toList
  | .creating tokens _ => tokens.refreshToken.toList
  | _ => []

structure Callback where
  state : String
  phase : CallbackPhase

/-- What has happened, for the statements about it: the logins that were saved, the refresh tokens with the login they were
issued for, the answers of the API, the sessions with their logins, the refresh tokens that were exchanged for another one,
those of them whose successor did not reach Redis, those that were presented once more, the sessions that were logged out
and those of them that were being renewed at that moment. -/
structure SessionLog where
  saved : List String
  issued : List (String × String)
  answers : List (String × PrincipalRead)
  created : List (String × String)
  rotated : List String
  lost : List String
  reused : List String
  loggedOut : List String
  overtaken : List String

structure LoginWorld where
  sessions : String → Option AppSession
  logins : String → Option LoginState
  refreshes : String → Option ℕ
  tasks : ℕ → Option Refresh
  nextTask : ℕ
  requests : ℕ → Option SessionRequest
  callbacks : ℕ → Option Callback
  log : SessionLog

def LoginWorld.initial : LoginWorld where
  sessions _ := none
  logins _ := none
  refreshes _ := none
  tasks _ := none
  nextTask := 0
  requests _ := none
  callbacks _ := none
  log := ⟨[], [], [], [], [], [], [], [], []⟩

/-- How a grant ends: refused or never received, carried out with the answer lost, or answered. -/
inductive GrantOutcome
  | refused
  | unheard (tokens : TokenReply)
  | granted (tokens : TokenReply)
deriving DecidableEq

def GrantOutcome.refreshToken : GrantOutcome → Option String
  | .refused => none
  | .unheard tokens => tokens.refreshToken
  | .granted tokens => tokens.refreshToken

/-- How a `SET` ends: without effect, with its effect and an error, or well. -/
inductive SaveOutcome
  | failed
  | unheard
  | saved
deriving DecidableEq

inductive SessionEvent
  | load (r : ℕ) (id : String)
  | resume (r : ℕ) (now : ℚ)
  | wake (r : ℕ)
  | read (k : ℕ) (heard : Bool)
  | check (k : ℕ) (now : ℚ)
  | configure (k : ℕ) (configured : Bool)
  | grant (k : ℕ) (outcome : GrantOutcome) (now : ℚ)
  | save (k : ℕ) (outcome : SaveOutcome)
  | login (state : String) (login : LoginState)
  | callback (c : ℕ) (state : String) (cookieState : Option String) (error : Bool)
  | exchange (c : ℕ) (outcome : GrantOutcome)
  | identify (c : ℕ) (answer : Option PrincipalRead)
  | create (c : ℕ) (id : String) (outcome : SaveOutcome) (now : ℚ)
  | logout (id : String)
  | expire (id : String)
  | expireLogin (state : String)

/-- The steps of `resolveSession`. -/
def SessionEvent.resolves : SessionEvent → Bool
  | .load .. | .resume .. | .wake .. => true
  | _ => false

namespace LoginWorld

def setRequest (w : LoginWorld) (r : ℕ) (q : SessionRequest) : LoginWorld :=
  { w with requests := Function.update w.requests r (some q) }

def setPhase (w : LoginWorld) (k : ℕ) (id : String) (phase : RefreshPhase) : LoginWorld :=
  { w with tasks := Function.update w.tasks k (some ⟨id, phase⟩) }

def setCallback (w : LoginWorld) (c : ℕ) (state : String) (phase : CallbackPhase) : LoginWorld :=
  { w with callbacks := Function.update w.callbacks c (some ⟨state, phase⟩) }

/-- `refreshSession(id)` up to its first await, and its entry in the map. -/
def startRefresh (w : LoginWorld) (id : String) : LoginWorld :=
  { w with
    refreshes := Function.update w.refreshes id (some w.nextTask)
    tasks := Function.update w.tasks w.nextTask (some ⟨id, .loading⟩)
    nextTask := w.nextTask + 1 }

/-- `resolveSession` after its session is loaded. -/
def resolveSession (w : LoginWorld) (r : ℕ) (id : String) (loaded : Option AppSession) (now : ℚ) : LoginWorld :=
  match loaded with
  | none => w.setRequest r ⟨id, .answered none⟩
  | some session =>
    if truthy session.accessToken = false then w.setRequest r ⟨id, .answered none⟩
    else if session.lasts now = true then w.setRequest r ⟨id, .answered (some session)⟩
    else if truthy session.refreshToken = false then w.setRequest r ⟨id, .answered none⟩
    else
      match w.refreshes id with
      | some k => w.setRequest r ⟨id, .awaiting k false⟩
      | none => (w.startRefresh id).setRequest r ⟨id, .awaiting w.nextTask true⟩

/-- `refreshSession` after its session is loaded. -/
def checkedPhase (loaded : Option AppSession) (now : ℚ) : RefreshPhase :=
  match loaded with
  | none => .resolved none
  | some session =>
    if truthy session.accessToken = false then .resolved none
    else if session.lasts now = true then .resolved (some session)
    else if truthy session.refreshToken = false then .resolved none
    else .configuring session

def send (w : LoginWorld) (k : ℕ) (id : String) (session : AppSession) : LoginWorld :=
  { w.setPhase k id (.granting session) with
    log := { w.log with reused := w.log.reused ++ session.refreshToken.toList.filter (· ∈ w.log.rotated) } }

def loginOf (w : LoginWorld) (id : String) : String := ((w.log.created.find? (·.1 = id)).map Prod.snd).getD ""

/-- The refresh token that another one has replaced. -/
def replaced (session refreshed : AppSession) : List String :=
  if refreshed.refreshToken = session.refreshToken then [] else session.refreshToken.toList

/-- The provider has exchanged the token of a session, perhaps for another one. -/
def rotate (w : LoginWorld) (id : String) (session refreshed : AppSession) : LoginWorld :=
  { w with
    log := { w.log with
      issued := w.log.issued ++ refreshed.refreshToken.toList.map (·, w.loginOf id)
      rotated := w.log.rotated ++ replaced session refreshed } }

/-- The successor of the token does not reach Redis. -/
def lose (w : LoginWorld) (session refreshed : AppSession) : LoginWorld :=
  { w with log := { w.log with lost := w.log.lost ++ replaced session refreshed } }

def setSession (w : LoginWorld) (id : String) (session : Option AppSession) : LoginWorld :=
  { w with sessions := Function.update w.sessions id session }

def grant (w : LoginWorld) (k : ℕ) (id : String) (session : AppSession) (outcome : GrantOutcome) (now : ℚ) :
    LoginWorld :=
  match outcome with
  | .refused => w.setPhase k id (.resolved none)
  | .unheard tokens =>
    ((w.rotate id session (session.renewed tokens now)).lose session (session.renewed tokens now)).setPhase k id (.resolved none)
  | .granted tokens =>
    (w.rotate id session (session.renewed tokens now)).setPhase k id (.saving session (session.renewed tokens now))

def saveRefreshed (w : LoginWorld) (k : ℕ) (id : String) (session refreshed : AppSession) (outcome : SaveOutcome) :
    LoginWorld :=
  match outcome with
  | .failed => (w.lose session refreshed).setPhase k id (.resolved none)
  | .unheard => (w.setSession id (some refreshed)).setPhase k id (.resolved none)
  | .saved => (w.setSession id (some refreshed)).setPhase k id (.resolved (some refreshed))

/-- `saveLoginState`; a state that is there is not written over. -/
def saveLoginState (w : LoginWorld) (state : String) (login : LoginState) : LoginWorld :=
  match w.logins state with
  | some _ => w
  | none =>
    { w with
      logins := Function.update w.logins state (some login)
      log := { w.log with saved := w.log.saved ++ [state] } }

/-- The callback of a login up to the exchange of its code. -/
def callback (w : LoginWorld) (c : ℕ) (state : String) (cookieState : Option String) (error : Bool) : LoginWorld :=
  if state = "" ∨ cookieState ≠ some state ∨ error = true then w.setCallback c state .finished
  else
    match w.logins state with
    | none => w.setCallback c state .finished
    | some login => { w with logins := Function.update w.logins state none }.setCallback c state (.exchanging login)

def issue (w : LoginWorld) (state : String) (tokens : TokenReply) : LoginWorld :=
  { w with log := { w.log with issued := w.log.issued ++ tokens.refreshToken.toList.map (·, state) } }

def exchange (w : LoginWorld) (c : ℕ) (state : String) (outcome : GrantOutcome) : LoginWorld :=
  match outcome with
  | .refused => w.setCallback c state .finished
  | .unheard tokens => (w.issue state tokens).setCallback c state .finished
  | .granted tokens => (w.issue state tokens).setCallback c state (.identifying tokens)

def identify (w : LoginWorld) (c : ℕ) (state : String) (tokens : TokenReply) (answer : Option PrincipalRead) :
    LoginWorld :=
  match answer with
  | none => w.setCallback c state .finished
  | some principal =>
    { w with log := { w.log with answers := w.log.answers ++ [(state, principal)] } }.setCallback c state
      (.creating tokens principal)

def newSession (tokens : TokenReply) (principal : PrincipalRead) (now : ℚ) : AppSession where
  subject := principal.subject
  roles := principal.roles
  accessToken := some tokens.accessToken
  refreshToken := tokens.refreshToken
  expiresAt := some (tokens.expiresAt now)

def create (w : LoginWorld) (c : ℕ) (state id : String) (session : AppSession) (outcome : SaveOutcome) : LoginWorld :=
  match outcome with
  | .failed => w.setCallback c state .finished
  | _ =>
    { w.setSession id (some session) with
      log := { w.log with created := w.log.created ++ [(id, state)] } }.setCallback c state .finished

/-- Whether the session is being renewed from what was read before this moment. -/
def renewing (w : LoginWorld) (id : String) : Bool :=
  ((w.refreshes id).bind w.tasks).any fun t => t.phase.held ≠ []

/-- `deleteSession` -/
def logout (w : LoginWorld) (id : String) : LoginWorld :=
  { w.setSession id none with
    log := { w.log with
      loggedOut := w.log.loggedOut ++ [id]
      overtaken := w.log.overtaken ++ if w.renewing id = true then [id] else [] } }

/-- A request whose renewal is over. The request that has started it removes its entry. -/
def answer (w : LoginWorld) (r : ℕ) (id : String) (k : ℕ) (owner : Bool) (session : Option AppSession) : LoginWorld :=
  let answered := w.setRequest r ⟨id, .answered session⟩
  if owner = true ∧ w.refreshes id = some k then { answered with refreshes := Function.update w.refreshes id none }
  else answered

def next (w : LoginWorld) : SessionEvent → Option LoginWorld
  | .load r id =>
    match w.requests r with
    | some _ => none
    | none => some (w.setRequest r ⟨id, .loaded (if id = "" then none else w.sessions id)⟩)
  | .resume r now =>
    match w.requests r with
    | some ⟨id, .loaded session⟩ => some (w.resolveSession r id session now)
    | _ => none
  | .wake r =>
    match w.requests r with
    | some ⟨id, .awaiting k owner⟩ =>
      match w.tasks k with
      | some ⟨_, .resolved session⟩ => some (w.answer r id k owner session)
      | _ => none
    | _ => none
  | .read k heard =>
    match w.tasks k with
    | some ⟨id, .loading⟩ => some (w.setPhase k id (if heard = true then .checking (w.sessions id) else .resolved none))
    | _ => none
  | .check k now =>
    match w.tasks k with
    | some ⟨id, .checking session⟩ => some (w.setPhase k id (checkedPhase session now))
    | _ => none
  | .configure k configured =>
    match w.tasks k with
    | some ⟨id, .configuring session⟩ => some (if configured = true then w.send k id session else w.setPhase k id (.resolved none))
    | _ => none
  | .grant k outcome now =>
    match w.tasks k with
    | some ⟨id, .granting session⟩ => some (w.grant k id session outcome now)
    | _ => none
  | .save k outcome =>
    match w.tasks k with
    | some ⟨id, .saving session refreshed⟩ => some (w.saveRefreshed k id session refreshed outcome)
    | _ => none
  | .login state login => some (w.saveLoginState state login)
  | .callback c state cookieState error =>
    match w.callbacks c with
    | some _ => none
    | none => some (w.callback c state cookieState error)
  | .exchange c outcome =>
    match w.callbacks c with
    | some ⟨state, .exchanging _⟩ => some (w.exchange c state outcome)
    | _ => none
  | .identify c answer =>
    match w.callbacks c with
    | some ⟨state, .identifying tokens⟩ => some (w.identify c state tokens answer)
    | _ => none
  | .create c id outcome now =>
    match w.callbacks c with
    | some ⟨state, .creating tokens principal⟩ => some (w.create c state id (newSession tokens principal now) outcome)
    | _ => none
  | .logout id => some (w.logout id)
  | .expire id => some (w.setSession id none)
  | .expireLogin state => some { w with logins := Function.update w.logins state none }

def presented (w : LoginWorld) (k : ℕ) : Option String :=
  match w.tasks k with
  | some ⟨_, .granting session⟩ => session.refreshToken
  | _ => none

/-- What is random is new, and the provider issues a refresh token to one login only, unless it is the one presented. -/
def Fresh (w : LoginWorld) : SessionEvent → Prop
  | .grant k outcome _ => ∀ token ∈ outcome.refreshToken, w.presented k = some token ∨ token ∉ w.log.issued.map Prod.fst
  | .exchange _ outcome => ∀ token ∈ outcome.refreshToken, token ∉ w.log.issued.map Prod.fst
  | .login state _ => state ∉ w.log.saved
  | .create _ id _ _ => id ∉ w.log.created.map Prod.fst ∧ id ∉ w.log.loggedOut
  | _ => True

instance (w : LoginWorld) : ∀ e, Decidable (w.Fresh e)
  | .grant k outcome _ =>
    inferInstanceAs (Decidable (∀ token ∈ outcome.refreshToken, w.presented k = some token ∨ token ∉ w.log.issued.map Prod.fst))
  | .exchange _ outcome => inferInstanceAs (Decidable (∀ token ∈ outcome.refreshToken, token ∉ w.log.issued.map Prod.fst))
  | .login state _ => inferInstanceAs (Decidable (state ∉ w.log.saved))
  | .create _ id _ _ => inferInstanceAs (Decidable (id ∉ w.log.created.map Prod.fst ∧ id ∉ w.log.loggedOut))
  | .load .. | .resume .. | .wake .. | .read .. | .check .. | .configure .. | .save .. | .callback .. | .identify .. |
    .logout .. | .expire .. | .expireLogin .. => inferInstanceAs (Decidable True)

end LoginWorld

def RefreshPhase.active : RefreshPhase → Bool
  | .resolved _ => false
  | _ => true

def RefreshPhase.sessions : RefreshPhase → List AppSession
  | .resolved session => session.toList
  | phase => phase.held

/-- The refresh tokens a task may still present or write. -/
def RefreshPhase.usable : RefreshPhase → List String
  | .checking session => session.toList.flatMap fun s => s.refreshToken.toList
  | .configuring session => session.refreshToken.toList
  | .granting session => session.refreshToken.toList
  | .saving _ refreshed => refreshed.refreshToken.toList
  | _ => []

/-- The task goes on with what it has read, or gives up. -/
structure RefreshPhase.Continues (phase phase' : RefreshPhase) : Prop where
  active : phase.active = true
  sessions : phase'.sessions ⊆ phase.held
  usable : phase'.usable ⊆ phase.usable
  before : ∀ session refreshed, phase ≠ .saving session refreshed

namespace LoginWorld

/-- The steps, as they change the sessions, the tasks and the logins. -/
inductive Takes (w : LoginWorld) : LoginWorld → Prop
  | asks {requests : ℕ → Option SessionRequest} : Takes w { w with requests := requests }
  | starts {id : String} {requests : ℕ → Option SessionRequest} (hfree : w.refreshes id = none) :
      Takes w { w.startRefresh id with requests := requests }
  | frees {id id' : String} {k : ℕ} {session : Option AppSession} {requests : ℕ → Option SessionRequest}
      (hmap : w.refreshes id = some k) (htask : w.tasks k = some ⟨id', .resolved session⟩) :
      Takes w { w with requests := requests, refreshes := Function.update w.refreshes id none }
  | reads {k : ℕ} {id : String} (htask : w.tasks k = some ⟨id, .loading⟩) :
      Takes w (w.setPhase k id (.checking (w.sessions id)))
  | moves {k : ℕ} {id : String} {phase phase' : RefreshPhase} (htask : w.tasks k = some ⟨id, phase⟩)
      (h : phase.Continues phase') : Takes w (w.setPhase k id phase')
  | sends {k : ℕ} {id : String} {session : AppSession} (htask : w.tasks k = some ⟨id, .configuring session⟩) :
      Takes w (w.send k id session)
  | rotates {k : ℕ} {id : String} {session refreshed : AppSession} (htask : w.tasks k = some ⟨id, .granting session⟩)
      (hsubject : refreshed.subject = session.subject) (hroles : refreshed.roles = session.roles)
      (hfresh : ∀ token ∈ refreshed.refreshToken,
        session.refreshToken = some token ∨ token ∉ w.log.issued.map Prod.fst) :
      Takes w ((w.rotate id session refreshed).setPhase k id (.saving session refreshed))
  | fails {k : ℕ} {id : String} {session refreshed : AppSession} (htask : w.tasks k = some ⟨id, .saving session refreshed⟩) :
      Takes w ((w.lose session refreshed).setPhase k id (.resolved none))
  | saves {k : ℕ} {id : String} {session refreshed : AppSession} {result : Option AppSession}
      (htask : w.tasks k = some ⟨id, .saving session refreshed⟩) (hresult : ∀ s ∈ result, s = refreshed) :
      Takes w ((w.setSession id (some refreshed)).setPhase k id (.resolved result))
  | remembers {state : String} {login : LoginState} (hnew : state ∉ w.log.saved) : Takes w (w.saveLoginState state login)
  | consumes {c : ℕ} {state : String} {login : LoginState} (hlogin : w.logins state = some login) :
      Takes w ({ w with logins := Function.update w.logins state none }.setCallback c state (.exchanging login))
  | finishes {c : ℕ} {state : String} : Takes w (w.setCallback c state .finished)
  | issues {c : ℕ} {state : String} {login : LoginState} {tokens : TokenReply} {phase : CallbackPhase}
      (hcallback : w.callbacks c = some ⟨state, .exchanging login⟩)
      (hfresh : ∀ token ∈ tokens.refreshToken, token ∉ w.log.issued.map Prod.fst)
      (hphase : phase = .finished ∨ phase = .identifying tokens) :
      Takes w ((w.issue state tokens).setCallback c state phase)
  | identifies {c : ℕ} {state : String} {tokens : TokenReply} {principal : PrincipalRead}
      (hcallback : w.callbacks c = some ⟨state, .identifying tokens⟩) :
      Takes w (w.identify c state tokens (some principal))
  | creates {c : ℕ} {state id : String} {tokens : TokenReply} {principal : PrincipalRead} {now : ℚ}
      (hcallback : w.callbacks c = some ⟨state, .creating tokens principal⟩) (hid : id ∉ w.log.created.map Prod.fst)
      (hout : id ∉ w.log.loggedOut) :
      Takes w (w.create c state id (newSession tokens principal now) .saved)
  | logsOut {id : String} : Takes w (w.logout id)
  | expires {id : String} : Takes w (w.setSession id none)
  | expiresLogin {state : String} : Takes w { w with logins := Function.update w.logins state none }

theorem checkedPhase_continues (session : Option AppSession) (now : ℚ) :
    (RefreshPhase.checking session).Continues (checkedPhase session now) := by
  refine ⟨rfl, ?_, ?_, fun s s' h => nomatch h⟩
  · unfold checkedPhase
    split
    · exact List.nil_subset _
    · split_ifs
      · exact List.nil_subset _
      · exact List.Subset.refl _
      · exact List.nil_subset _
      · exact List.Subset.refl _
  · unfold checkedPhase
    split
    · exact List.nil_subset _
    · split_ifs
      · exact List.nil_subset _
      · exact List.nil_subset _
      · exact List.nil_subset _
      · simp [RefreshPhase.usable]

theorem takes_resolveSession (w : LoginWorld) (r : ℕ) (id : String) (loaded : Option AppSession) (now : ℚ) :
    w.Takes (w.resolveSession r id loaded now) := by
  unfold resolveSession
  split
  · exact .asks
  · split_ifs
    · exact .asks
    · exact .asks
    · exact .asks
    · split
      · exact .asks
      · exact .starts ‹_›

theorem lose_setPhase (w : LoginWorld) (k : ℕ) (id : String) (session refreshed : AppSession) (phase phase' : RefreshPhase) :
    ((w.setPhase k id phase).lose session refreshed).setPhase k id phase' =
      (w.lose session refreshed).setPhase k id phase' := by
  simp [setPhase, lose]

theorem takes_grant {w : LoginWorld} {k : ℕ} {id : String} {session : AppSession} {outcome : GrantOutcome} {now : ℚ}
    (htask : w.tasks k = some ⟨id, .granting session⟩)
    (hfresh : ∀ token ∈ outcome.refreshToken, session.refreshToken = some token ∨ token ∉ w.log.issued.map Prod.fst) :
    ReflTransGen Takes w (w.grant k id session outcome now) := by
  have hrenewed (tokens : TokenReply) (htokens : outcome.refreshToken = tokens.refreshToken) :
      Takes w ((w.rotate id session (session.renewed tokens now)).setPhase k id
        (.saving session (session.renewed tokens now))) := by
    refine .rotates htask rfl rfl fun token htoken => ?_
    rcases Option.or_eq_some_iff.1 htoken with h | ⟨-, h⟩
    · exact hfresh token (htokens.trans h)
    · exact .inl h
  cases outcome with
  | refused => exact .single (.moves htask ⟨rfl, List.nil_subset _, List.nil_subset _, fun s s' h => nomatch h⟩)
  | unheard tokens =>
    have hfails : Takes ((w.rotate id session (session.renewed tokens now)).setPhase k id
        (.saving session (session.renewed tokens now))) _ := .fails (Function.update_self ..)
    rw [lose_setPhase] at hfails
    exact .tail (.single (hrenewed tokens rfl)) hfails
  | granted tokens => exact .single (hrenewed tokens rfl)

theorem takes_of_next {w w' : LoginWorld} {e : SessionEvent} (hfresh : w.Fresh e) (h : w.next e = some w') :
    ReflTransGen Takes w w' := by
  cases e with
  | load r id =>
    simp only [next] at h
    split at h
    · cases h
    · obtain rfl := Option.some.inj h
      exact .single .asks
  | resume r now =>
    simp only [next] at h
    split at h
    · obtain rfl := Option.some.inj h
      exact .single (takes_resolveSession ..)
    · cases h
  | wake r =>
    simp only [next] at h
    split at h
    · split at h
      · obtain rfl := Option.some.inj h
        unfold answer
        dsimp only
        split_ifs with hmap
        · exact .single (.frees hmap.2 ‹_›)
        · exact .single .asks
      · cases h
    · cases h
  | read k heard =>
    simp only [next] at h
    split at h
    · rename_i htask
      obtain rfl := Option.some.inj h
      split_ifs
      · exact .single (.reads htask)
      · exact .single (.moves htask ⟨rfl, List.nil_subset _, List.nil_subset _, fun s s' h => nomatch h⟩)
    · cases h
  | check k now =>
    simp only [next] at h
    split at h
    · rename_i htask
      obtain rfl := Option.some.inj h
      exact .single (.moves htask (checkedPhase_continues ..))
    · cases h
  | configure k configured =>
    simp only [next] at h
    split at h
    · rename_i htask
      obtain rfl := Option.some.inj h
      split_ifs
      · exact .single (.sends htask)
      · exact .single (.moves htask ⟨rfl, List.nil_subset _, List.nil_subset _, fun s s' h => nomatch h⟩)
    · cases h
  | grant k outcome now =>
    simp only [next] at h
    split at h
    · rename_i htask
      obtain rfl := Option.some.inj h
      refine takes_grant htask fun token htoken => ?_
      simpa only [presented, htask] using hfresh token htoken
    · cases h
  | save k outcome =>
    simp only [next] at h
    split at h
    · rename_i htask
      obtain rfl := Option.some.inj h
      cases outcome with
      | failed => exact .single (.fails htask)
      | unheard => exact .single (.saves htask fun s hs => nomatch hs)
      | saved => exact .single (.saves htask fun s hs => (Option.some.inj hs).symm)
    · cases h
  | login state login =>
    obtain rfl := Option.some.inj h
    exact .single (.remembers hfresh)
  | callback c state cookieState error =>
    simp only [next] at h
    split at h
    · cases h
    · obtain rfl := Option.some.inj h
      unfold callback
      split_ifs
      · exact .single .finishes
      · split
        · exact .single .finishes
        · exact .single (.consumes ‹_›)
  | exchange c outcome =>
    simp only [next] at h
    split at h
    · rename_i hcallback
      obtain rfl := Option.some.inj h
      cases outcome with
      | refused => exact .single .finishes
      | unheard tokens => exact .single (.issues hcallback hfresh (.inl rfl))
      | granted tokens => exact .single (.issues hcallback hfresh (.inr rfl))
    · cases h
  | identify c answer =>
    simp only [next] at h
    split at h
    · rename_i hcallback
      obtain rfl := Option.some.inj h
      cases answer with
      | none => exact .single .finishes
      | some principal => exact .single (.identifies hcallback)
    · cases h
  | create c id outcome now =>
    simp only [next] at h
    split at h
    · rename_i hcallback
      obtain rfl := Option.some.inj h
      cases outcome with
      | failed => exact .single .finishes
      | unheard => exact .single (.creates hcallback hfresh.1 hfresh.2)
      | saved => exact .single (.creates hcallback hfresh.1 hfresh.2)
    · cases h
  | logout id =>
    obtain rfl := Option.some.inj h
    exact .single .logsOut
  | expire id =>
    obtain rfl := Option.some.inj h
    exact .single .expires
  | expireLogin state =>
    obtain rfl := Option.some.inj h
    exact .single .expiresLogin

end LoginWorld

end InvoiceOps
